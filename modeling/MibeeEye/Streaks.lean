/-
**Streaks.**

A counter that goes up with every entry of a kind, and back to zero with any other, has the number of
the last entries in a row that are of the kind.

Main definitions:

* `Streak.length` — the number of the last entries in a row that are of a kind.

Main results:

* `Streak.length_concat` — one more entry;
* `Streak.le_length_iff` — **a streak is so long exactly where the last entries are of the kind**;
* `Streak.forall_concat` — what holds of every entry after the ones before it.
-/

import Mathlib.Data.List.Induction

set_option relaxedAutoImplicit false
set_option autoImplicit false

namespace Streak

variable {α : Type} {p q : α → Bool} {l w : List α} {a : α} {n : ℕ}

/-- The number of the last entries in a row that are of a kind. -/
def length (p : α → Bool) (l : List α) : ℕ := (l.reverse.takeWhile p).length

@[simp] theorem length_nil : length p [] = 0 := rfl

theorem length_concat : length p (l ++ [a]) = if p a then length p l + 1 else 0 := by
  cases h : p a <;> simp [length, h]

/-- A kind that is wider has streaks that are longer. -/
theorem length_mono (h : ∀ a, p a = true → q a = true) (l : List α) : length p l ≤ length q l := by
  induction l using List.reverseRecOn with
  | nil => exact Nat.le_refl 0
  | append_singleton l a ih =>
      rw [length_concat, length_concat]
      cases hp : p a with
      | false => exact Nat.zero_le _
      | true =>
          rw [h a hp]
          exact Nat.succ_le_succ ih

/-- **A streak is so long exactly where the last entries are of the kind.** -/
theorem le_length_iff : n ≤ length p l ↔ ∃ w, w <:+ l ∧ w.length = n ∧ ∀ a ∈ w, p a = true := by
  induction l using List.reverseRecOn generalizing n with
  | nil =>
      constructor
      · intro h
        exact ⟨[], List.suffix_refl _, (Nat.le_zero.1 h).symm, by simp⟩
      · rintro ⟨w, hw, rfl, -⟩
        rw [List.suffix_nil.1 hw]
        exact Nat.le_refl 0
  | append_singleton l a ih =>
      rw [length_concat]
      constructor
      · intro h
        cases n with
        | zero => exact ⟨[], List.nil_suffix, rfl, by simp⟩
        | succ n =>
            cases hp : p a with
            | false => simp [hp] at h
            | true =>
                rw [hp, if_pos rfl] at h
                obtain ⟨w, hw, hlen, hall⟩ := ih.1 (Nat.le_of_succ_le_succ h)
                refine ⟨w ++ [a], List.suffix_concat_iff.2 (.inr ⟨w, rfl, hw⟩), by simp [hlen], ?_⟩
                intro b hb
                rcases List.mem_append.1 hb with hb | hb
                · exact hall b hb
                · rwa [List.mem_singleton.1 hb]
      · rintro ⟨w, hw, rfl, hall⟩
        rcases List.suffix_concat_iff.1 hw with rfl | ⟨w, rfl, hsuffix⟩
        · exact Nat.zero_le _
        · have hp : p a = true := hall a (by simp)
          rw [hp, if_pos rfl, List.length_append]
          exact Nat.succ_le_succ (ih.2 ⟨w, hsuffix, rfl, fun b hb => hall b (by simp [hb])⟩)

/-- The last entries, where a streak is at least so long. -/
theorem forall_of_le_length (h : w.length ≤ length p l) (hw : w <:+ l) : ∀ a ∈ w, p a = true := by
  obtain ⟨w', hw', hlen, hall⟩ := le_length_iff.1 h
  have hsuffix := List.suffix_of_suffix_length_le hw hw' (Nat.le_of_eq hlen.symm)
  rwa [hsuffix.eq_of_length hlen.symm]

/-- What is to hold of every entry, after the ones before it, with one more entry. -/
theorem forall_concat {P : List α → α → Prop} (h : ∀ pre b post, l = pre ++ b :: post → P pre b)
    (ha : P l a) : ∀ pre b post, l ++ [a] = pre ++ b :: post → P pre b := by
  intro pre b post heq
  rcases List.eq_nil_or_concat post with rfl | ⟨post, c, rfl⟩
  · obtain ⟨rfl, hb⟩ := List.append_inj' heq rfl
    cases hb
    exact ha
  · rw [List.concat_eq_append, ← List.cons_append, ← List.append_assoc] at heq
    exact h pre b post (List.append_inj' heq rfl).1

end Streak

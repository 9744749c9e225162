/-
**Greedy selection.**

A list is gone through from its front, and an entry is chosen unless one that was chosen before blocks
it.  What is chosen is described by positions, so that entries that occur more than once are told
apart.

Main definitions:

* `Greedy.select` — the entries that are chosen;
* `Greedy.IsSelection` — positions of which none blocks another, and one of which blocks each
  position that is left out.

Main results:

* `Greedy.exists_isSelection` — what is chosen stands at the positions of a selection;
* `Greedy.select_sublist` — what is chosen is a sublist;
* `Greedy.pairwise_select` — no chosen entry blocks a later one.
-/

import Mathlib.Data.List.Forall2
import Mathlib.Data.List.Induction

set_option relaxedAutoImplicit false
set_option autoImplicit false

namespace Greedy

variable {α : Type} (blocks : α → α → Bool)

/-! ### The choice -/

/-- An entry comes behind the chosen ones unless one of them blocks it. -/
def visit (chosen : List α) (a : α) : List α :=
  if chosen.any (blocks · a) then chosen else chosen ++ [a]

/-- The entries that are chosen. -/
def select (l : List α) : List α := l.foldl (visit blocks) []

@[simp] theorem select_nil : select blocks [] = [] := rfl

theorem select_concat (l : List α) (a : α) :
    select blocks (l ++ [a]) = visit blocks (select blocks l) a := by
  simp [select]

theorem visit_of_blocked {chosen : List α} {a k : α} (hk : k ∈ chosen) (h : blocks k a = true) :
    visit blocks chosen a = chosen :=
  if_pos (List.any_eq_true.mpr ⟨k, hk, h⟩)

theorem visit_of_free {chosen : List α} {a : α} (h : ∀ k ∈ chosen, blocks k a = false) :
    visit blocks chosen a = chosen ++ [a] := by
  refine if_neg fun hany => ?_
  obtain ⟨k, hk, hb⟩ := List.any_eq_true.mp hany
  rw [h k hk] at hb
  cases hb

/-- What happens to one entry: it is blocked by a chosen one, or it is chosen. -/
theorem visit_cases (chosen : List α) (a : α) :
    (∃ k ∈ chosen, blocks k a = true ∧ visit blocks chosen a = chosen) ∨
    ((∀ k ∈ chosen, blocks k a = false) ∧ visit blocks chosen a = chosen ++ [a]) := by
  by_cases h : ∃ k ∈ chosen, blocks k a = true
  · obtain ⟨k, hk, hb⟩ := h
    exact .inl ⟨k, hk, hb, visit_of_blocked blocks hk hb⟩
  · have hfree : ∀ k ∈ chosen, blocks k a = false := fun k hk =>
      Bool.eq_false_iff.mpr fun hb => h ⟨k, hk, hb⟩
    exact .inr ⟨hfree, visit_of_free blocks hfree⟩

/-- No chosen entry blocks a later one. -/
theorem pairwise_select (l : List α) : (select blocks l).Pairwise fun k a => blocks k a = false := by
  induction l using List.reverseRecOn with
  | nil => exact .nil
  | append_singleton l a ih =>
      rw [select_concat]
      obtain ⟨k, -, -, heq⟩ | ⟨hfree, heq⟩ := visit_cases blocks (select blocks l) a
      · rwa [heq]
      · rw [heq]
        refine List.pairwise_append.mpr ⟨ih, List.pairwise_singleton _ _, fun k hk b hb => ?_⟩
        rw [List.mem_singleton.mp hb]
        exact hfree k hk

/-- What is chosen is a sublist. -/
theorem select_sublist (l : List α) : (select blocks l).Sublist l := by
  induction l using List.reverseRecOn with
  | nil => exact .slnil
  | append_singleton l a ih =>
      rw [select_concat]
      obtain ⟨-, -, -, heq⟩ | ⟨-, heq⟩ := visit_cases blocks (select blocks l) a
      · rw [heq]
        exact ih.trans (List.sublist_append_left l [a])
      · rw [heq]
        exact ih.append (.refl [a])

/-! ### Selections -/

/-- Positions `is` of a list at which `chosen` stands, in order, and such that an entry at one of
them blocks each entry behind it that is left out. -/
structure IsSelection (l chosen : List α) (is : List ℕ) : Prop where
  ordered : is.Pairwise (· < ·)
  standing : List.Forall₂ (fun i a => l[i]? = some a) is chosen
  blocked : ∀ j a, l[j]? = some a → j ∉ is →
    ∃ i ∈ is, i < j ∧ ∃ k, l[i]? = some k ∧ blocks k a = true

variable {blocks} {l chosen : List α} {is : List ℕ}

/-- The positions of a selection are positions of the list. -/
theorem IsSelection.lt_length (h : IsSelection blocks l chosen is) {i : ℕ} (hi : i ∈ is) :
    i < l.length := by
  obtain ⟨n, hn, rfl⟩ := List.mem_iff_getElem.mp hi
  have hstand := h.standing.get (i := n) hn (h.standing.length_eq ▸ hn)
  exact (List.getElem?_eq_some_iff.mp hstand).1

/-- A chosen entry has a position of the selection. -/
theorem IsSelection.exists_position (h : IsSelection blocks l chosen is) {k : α} (hk : k ∈ chosen) :
    ∃ i ∈ is, l[i]? = some k := by
  obtain ⟨n, hn, rfl⟩ := List.mem_iff_getElem.mp hk
  have hn' : n < is.length := h.standing.length_eq ▸ hn
  exact ⟨is[n], List.getElem_mem hn', h.standing.get hn' hn⟩

/-- An entry at a position of the selection is chosen. -/
theorem IsSelection.mem_of_position (h : IsSelection blocks l chosen is) {i : ℕ} {k : α}
    (hi : i ∈ is) (hk : l[i]? = some k) : k ∈ chosen := by
  obtain ⟨n, hn, rfl⟩ := List.mem_iff_getElem.mp hi
  have hn' : n < chosen.length := h.standing.length_eq ▸ hn
  have hstand : l[is[n]]? = some chosen[n] := h.standing.get hn hn'
  rw [hk] at hstand
  exact Option.some.inj hstand ▸ List.getElem_mem hn'

/-- The entries at the positions of a selection stay there when the list grows. -/
theorem IsSelection.standing_append (h : IsSelection blocks l chosen is) (l' : List α) :
    List.Forall₂ (fun i a => (l ++ l')[i]? = some a) is chosen :=
  h.standing.imp fun i a hia => by
    rw [List.getElem?_append_left (List.getElem?_eq_some_iff.mp hia).1]
    exact hia

/-- One more entry: the selection stays, or the last position is added to it. -/
theorem IsSelection.concat (h : IsSelection blocks l chosen is) (a : α) :
    ∃ is', IsSelection blocks (l ++ [a]) (visit blocks chosen a) is' := by
  have hkeep : ∀ {j : ℕ} {b : α}, j < l.length → ((l ++ [a])[j]? = some b ↔ l[j]? = some b) :=
    fun hj => by rw [List.getElem?_append_left hj]
  -- what was left out before is blocked as before
  have hold : ∀ j b, j < l.length → (l ++ [a])[j]? = some b → j ∉ is →
      ∃ i ∈ is, i < j ∧ ∃ k, (l ++ [a])[i]? = some k ∧ blocks k b = true := by
    intro j b hj hb hnot
    obtain ⟨i, hi, hij, k, hk, hkb⟩ := h.blocked j b ((hkeep hj).mp hb) hnot
    exact ⟨i, hi, hij, k, (hkeep (Nat.lt_trans hij hj)).mpr hk, hkb⟩
  have hlast : ∀ {j : ℕ} {b : α}, (l ++ [a])[j]? = some b → ¬ j < l.length → j = l.length ∧ b = a := by
    intro j b hb hj
    have hlt := (List.getElem?_eq_some_iff.mp hb).1
    simp only [List.length_append, List.length_singleton] at hlt
    obtain rfl : j = l.length := by omega
    rw [List.getElem?_concat_length] at hb
    exact ⟨rfl, (Option.some.inj hb).symm⟩
  obtain ⟨k, hk, hblock, heq⟩ | ⟨-, heq⟩ := visit_cases blocks chosen a
  · rw [heq]
    refine ⟨is, h.ordered, h.standing_append [a], fun j b hb hnot => ?_⟩
    by_cases hj : j < l.length
    · exact hold j b hj hb hnot
    · obtain ⟨rfl, rfl⟩ := hlast hb hj
      obtain ⟨i, hi, hik⟩ := h.exists_position hk
      exact ⟨i, hi, h.lt_length hi, k, (hkeep (h.lt_length hi)).mpr hik, hblock⟩
  · refine ⟨is ++ [l.length], ?_, ?_, fun j b hb hnot => ?_⟩
    · refine List.pairwise_append.mpr ⟨h.ordered, List.pairwise_singleton _ _, fun i hi n hn => ?_⟩
      rw [List.mem_singleton.mp hn]
      exact h.lt_length hi
    · rw [heq]
      refine List.rel_append (h.standing_append [a]) ?_
      exact .cons (List.getElem?_concat_length ..) .nil
    · rw [List.mem_append, List.mem_singleton, not_or] at hnot
      have hj : j < l.length := by
        by_contra hj
        exact hnot.2 (hlast hb hj).1
      obtain ⟨i, hi, hij, hk⟩ := hold j b hj hb hnot.1
      exact ⟨i, List.mem_append_left _ hi, hij, hk⟩

/-- What is chosen stands at the positions of a selection. -/
theorem exists_isSelection (l : List α) : ∃ is, IsSelection blocks l (select blocks l) is := by
  induction l using List.reverseRecOn with
  | nil => exact ⟨[], .nil, .nil, fun j a h => by simp at h⟩
  | append_singleton l a ih =>
      obtain ⟨is, h⟩ := ih
      rw [select_concat]
      exact h.concat a

end Greedy

/-
**Groups that an element closes.**

A sequence falls into groups, each of which ends with the first element of a kind; behind the last of
those there is a rest.  The groups are found by going through the sequence once, and there is only one way
to find them.

Main definitions:

* `Groups.split` — the groups, and the rest;
* `Groups.IsSplit` — what they are to be.

Main results:

* `Groups.split_iff` — **there is one split**;
* `Groups.split_flatMap` — groups that are written one behind the other are found again.
-/

import Mathlib.Data.List.Induction

set_option relaxedAutoImplicit false
set_option autoImplicit false

namespace Groups

variable {α : Type} (closes : α → Bool)

/-- One element more. -/
def extend (s : List (List α × α) × List α) (a : α) : List (List α × α) × List α :=
  if closes a then (s.1 ++ [(s.2, a)], []) else (s.1, s.2 ++ [a])

/-- The groups of a sequence, each with the element that closes it, and the rest. -/
def split (l : List α) : List (List α × α) × List α := l.foldl (extend closes) ([], [])

@[simp] theorem split_nil : split closes [] = ([], []) := rfl

@[simp] theorem split_concat (l : List α) (a : α) :
    split closes (l ++ [a]) = extend closes (split closes l) a := by
  simp [split]

/-- The sequence consists of these groups and this rest. -/
structure IsSplit (l : List α) (groups : List (List α × α)) (rest : List α) : Prop where
  parts : l = groups.flatMap (fun g => g.1 ++ [g.2]) ++ rest
  closed : ∀ g ∈ groups, closes g.2 = true ∧ ∀ a ∈ g.1, closes a = false
  rest_open : ∀ a ∈ rest, closes a = false

variable {closes} {l : List α} {groups : List (List α × α)} {rest : List α}

/-- What was found before stays in front. -/
theorem foldl_extend_found (found : List (List α × α)) (rest l : List α) :
    l.foldl (extend closes) (found, rest) =
      (found ++ (l.foldl (extend closes) ([], rest)).1, (l.foldl (extend closes) ([], rest)).2) := by
  induction l using List.reverseRecOn with
  | nil => simp
  | append_singleton l a ih =>
      rw [List.foldl_append, List.foldl_append, ih]
      simp only [List.foldl_cons, List.foldl_nil, extend]
      split <;> simp

/-- The groups that are found are groups. -/
theorem isSplit_split (l : List α) : IsSplit closes l (split closes l).1 (split closes l).2 := by
  induction l using List.reverseRecOn with
  | nil => exact ⟨rfl, by simp, by simp⟩
  | append_singleton l a ih =>
      obtain ⟨hparts, hclosed, hrest⟩ := ih
      rw [split_concat, extend]
      by_cases ha : closes a = true
      · rw [if_pos ha]
        refine ⟨?_, ?_, by simp⟩
        · conv_lhs => rw [hparts]
          simp
        · intro g hg
          rcases List.mem_append.1 hg with hg | hg
          · exact hclosed g hg
          · obtain rfl := List.mem_singleton.1 hg
            exact ⟨ha, hrest⟩
      · rw [if_neg ha]
        refine ⟨?_, hclosed, ?_⟩
        · conv_lhs => rw [hparts]
          simp
        · intro b hb
          rcases List.mem_append.1 hb with hb | hb
          · exact hrest b hb
          · obtain rfl := List.mem_singleton.1 hb
            exact Bool.eq_false_iff.2 ha

/-- Elements that close nothing stay in the rest. -/
theorem foldl_extend_open (h : ∀ a ∈ rest, closes a = false) (s : List (List α × α) × List α) :
    rest.foldl (extend closes) s = (s.1, s.2 ++ rest) := by
  induction rest generalizing s with
  | nil => simp
  | cons a rest ih =>
      rw [List.foldl_cons, extend, if_neg (by simp [h a List.mem_cons_self]),
        ih fun b hb => h b (List.mem_cons_of_mem a hb)]
      simp

/-- Groups are found where there is no rest. -/
theorem foldl_extend_groups
    (h : ∀ g ∈ groups, closes g.2 = true ∧ ∀ a ∈ g.1, closes a = false) (found : List (List α × α)) :
    (groups.flatMap fun g => g.1 ++ [g.2]).foldl (extend closes) (found, []) = (found ++ groups, []) := by
  induction groups generalizing found with
  | nil => simp
  | cons g groups ih =>
      obtain ⟨hclose, hopen⟩ := h g List.mem_cons_self
      rw [List.flatMap_cons, List.foldl_append, List.foldl_append, foldl_extend_open hopen,
        List.foldl_cons, List.foldl_nil, extend, if_pos hclose,
        ih fun g' hg' => h g' (List.mem_cons_of_mem g hg')]
      simp

/-- **There is one split.** -/
theorem split_iff : split closes l = (groups, rest) ↔ IsSplit closes l groups rest := by
  constructor
  · intro h
    have hsplit : IsSplit closes l (split closes l).1 (split closes l).2 := isSplit_split l
    rwa [h] at hsplit
  · rintro ⟨rfl, hclosed, hrest⟩
    rw [split, List.foldl_append, foldl_extend_groups hclosed, foldl_extend_open hrest]
    simp

/-- Groups that are written one behind the other are found again. -/
theorem split_flatMap (h : ∀ g ∈ groups, closes g.2 = true ∧ ∀ a ∈ g.1, closes a = false) :
    split closes (groups.flatMap fun g => g.1 ++ [g.2]) = (groups, []) :=
  split_iff.2 ⟨by simp, h, by simp⟩

end Groups

/-
**Removing from the front until little enough remains.**

A list of things that have a size is shortened from the front as long as the total that remains is over
a limit; some of the things are stuck, and are passed over.

Main definitions:

* `Eviction.weight`, `Eviction.movable` — the size of a list, and what can be removed of it;
* `Eviction.evict` — what is removed;
* `Eviction.Evicts` — what should be.

Main results:

* `Eviction.evicts_evict` — nothing is removed once little enough remains, and all that can be until
  then;
* `Eviction.mem_evict_iff` — when a thing is removed.
-/

import Mathlib.Algebra.BigOperators.Group.List.Basic
import Mathlib.Algebra.Order.BigOperators.Group.List
import Mathlib.Algebra.Order.Ring.Nat
import Mathlib.Data.List.Infix

set_option relaxedAutoImplicit false
set_option autoImplicit false

namespace Eviction

variable {α : Type} (size : α → ℕ) (stuck : α → Bool) (limit : ℕ)

/-- The size of a list. -/
def weight (l : List α) : ℕ := (l.map size).sum

/-- What can be removed. -/
def movable (l : List α) : List α := l.filter fun a => !stuck a

/-- What is removed of a list, when so much remains. -/
@[grind =] def evict : List α → ℕ → List α
  | [], _ => []
  | a :: l, total =>
      if total ≤ limit then []
      else if stuck a then evict l total
      else a :: evict l (total - size a)

/-- What can be removed of a front part is removed: before each of it too much remains, and behind it
little enough, unless it is all. -/
def Evicts (l : List α) (total : ℕ) (removed : List α) : Prop :=
  ∃ before after, l = before ++ after ∧ removed = movable stuck before ∧
    (∀ p a, p ++ [a] <+: before → limit < total - weight size (movable stuck p)) ∧
    (after ≠ [] → total - weight size (movable stuck before) ≤ limit)

@[simp] theorem weight_nil : weight size [] = 0 := rfl

@[simp] theorem weight_cons (a : α) (l : List α) : weight size (a :: l) = size a + weight size l :=
  List.sum_cons

@[simp] theorem weight_append (l l' : List α) :
    weight size (l ++ l') = weight size l + weight size l' := by
  rw [weight, List.map_append, List.sum_append]
  rfl

@[simp] theorem movable_nil : movable stuck ([] : List α) = [] := rfl

variable {stuck} in
theorem movable_cons_of_stuck {a : α} (h : stuck a = true) (l : List α) :
    movable stuck (a :: l) = movable stuck l :=
  List.filter_cons_of_neg (by simp [h])

variable {stuck} in
theorem movable_cons_of_not {a : α} (h : stuck a = false) (l : List α) :
    movable stuck (a :: l) = a :: movable stuck l :=
  List.filter_cons_of_pos (by simp [h])

/-- A list is what can be removed of it, and what cannot. -/
theorem weight_movable_add (l : List α) :
    weight size (movable stuck l) + weight size (l.filter stuck) = weight size l := by
  induction l with
  | nil => rfl
  | cons a l ih =>
      cases ha : stuck a with
      | true =>
          rw [movable_cons_of_stuck ha, List.filter_cons_of_pos ha, weight_cons, weight_cons, ← ih]
          omega
      | false =>
          rw [movable_cons_of_not ha, List.filter_cons_of_neg (by simp [ha]), weight_cons,
            weight_cons, ← ih]
          omega

/-- The size is zero where all sizes are. -/
theorem weight_pos_iff {l : List α} : 0 < weight size l ↔ ∃ a ∈ l, size a ≠ 0 := by
  rw [Nat.pos_iff_ne_zero, Ne, weight, List.sum_eq_zero_iff]
  simp

variable {size stuck limit}

theorem evict_of_le {l : List α} {total : ℕ} (h : total ≤ limit) :
    evict size stuck limit l total = [] := by
  cases l with
  | nil => rfl
  | cons a l => rw [evict, if_pos h]

theorem evict_cons_of_stuck {a : α} {l : List α} {total : ℕ} (h : ¬ total ≤ limit)
    (ha : stuck a = true) :
    evict size stuck limit (a :: l) total = evict size stuck limit l total := by
  rw [evict, if_neg h, if_pos ha]

theorem evict_cons_of_not {a : α} {l : List α} {total : ℕ} (h : ¬ total ≤ limit)
    (ha : stuck a = false) :
    evict size stuck limit (a :: l) total = a :: evict size stuck limit l (total - size a) := by
  rw [evict, if_neg h, if_neg (by simp [ha])]

/-- One more thing in front, of which `removed` is removed. -/
theorem evicts_cons {a : α} {l : List α} {total : ℕ} (h : ¬ total ≤ limit) {removed : List α}
    (ih : Evicts size stuck limit l (total - weight size (movable stuck [a])) removed) :
    Evicts size stuck limit (a :: l) total (movable stuck [a] ++ removed) := by
  obtain ⟨before, after, hl, hremoved, hbefore, hafter⟩ := ih
  have hcons : ∀ p, movable stuck (a :: p) = movable stuck [a] ++ movable stuck p := fun p =>
    List.filter_append [a] p
  have hweight : ∀ p, total - weight size (movable stuck (a :: p)) =
      total - weight size (movable stuck [a]) - weight size (movable stuck p) := by
    intro p
    rw [hcons, weight_append, Nat.sub_sub]
  refine ⟨a :: before, after, by rw [hl]; rfl, by rw [hcons before, hremoved], ?_, ?_⟩
  · intro p b hp
    cases p with
    | nil => exact Nat.lt_of_not_le h
    | cons c p =>
        obtain ⟨rfl, htail⟩ := List.cons_prefix_cons.1 hp
        rw [hweight]
        exact hbefore p b htail
  · intro hne
    rw [hweight]
    exact hafter hne

/-- **Nothing is removed once little enough remains**, and all that can be until then. -/
theorem evicts_evict (l : List α) (total : ℕ) :
    Evicts size stuck limit l total (evict size stuck limit l total) := by
  induction l generalizing total with
  | nil =>
      refine ⟨[], [], rfl, rfl, fun p a hp => ?_, fun h => absurd rfl h⟩
      exact absurd (List.prefix_nil.1 hp) (List.append_ne_nil_of_right_ne_nil p (List.cons_ne_nil a []))
  | cons a l ih =>
      by_cases h : total ≤ limit
      · rw [evict_of_le h]
        refine ⟨[], a :: l, rfl, rfl, fun p b hp => ?_, fun _ => h⟩
        exact absurd (List.prefix_nil.1 hp)
          (List.append_ne_nil_of_right_ne_nil p (List.cons_ne_nil b []))
      · cases ha : stuck a with
        | true =>
            have hnil : movable stuck [a] = [] := movable_cons_of_stuck ha []
            have hcons := @evicts_cons _ size stuck limit a l total h _ (ih _)
            rw [evict_cons_of_stuck h ha]
            rwa [hnil] at hcons
        | false =>
            have hself : movable stuck [a] = [a] := movable_cons_of_not ha []
            have hcons := @evicts_cons _ size stuck limit a l total h _ (ih _)
            rw [evict_cons_of_not h ha]
            rwa [hself, weight_cons, weight_nil, Nat.add_zero] at hcons

/-- **When a thing is removed**: it is not stuck, and too much remains before it. -/
theorem mem_evict_iff {a : α} {l : List α} {total : ℕ} :
    a ∈ evict size stuck limit l total ↔
      ∃ before after, l = before ++ a :: after ∧ stuck a = false ∧
        limit < total - weight size (movable stuck before) := by
  induction l generalizing total with
  | nil =>
      constructor
      · intro h
        cases h
      · rintro ⟨before, after, h, -⟩
        exact absurd h.symm (List.append_ne_nil_of_right_ne_nil _ (List.cons_ne_nil _ _))
  | cons b l ih =>
      have hmono : ∀ p : List α, total - weight size p ≤ total := fun p => Nat.sub_le _ _
      by_cases h : total ≤ limit
      · rw [evict_of_le h]
        constructor
        · intro h
          cases h
        · rintro ⟨before, after, -, -, hlt⟩
          exact absurd (hlt.trans_le (hmono _)) (Nat.not_lt.2 h)
      · -- the thing is the first, or one of the others
        have hsplit : ∀ total', (∀ p, total - weight size (movable stuck (b :: p)) =
            total' - weight size (movable stuck p)) →
            ((∃ before after, b :: l = before ++ a :: after ∧ stuck a = false ∧
              limit < total - weight size (movable stuck before)) ↔
            (b = a ∧ stuck a = false) ∨ a ∈ evict size stuck limit l total') := by
          intro total' hweight
          rw [ih]
          constructor
          · rintro ⟨before, after, hl, ha, hlt⟩
            cases before with
            | nil =>
                cases hl
                exact Or.inl ⟨rfl, ha⟩
            | cons c before =>
                cases hl
                rw [hweight] at hlt
                exact Or.inr ⟨before, after, rfl, ha, hlt⟩
          · rintro (⟨rfl, ha⟩ | ⟨before, after, rfl, ha, hlt⟩)
            · exact ⟨[], l, rfl, ha, Nat.lt_of_not_le h⟩
            · rw [← hweight] at hlt
              exact ⟨b :: before, after, rfl, ha, hlt⟩
        cases hb : stuck b with
        | true =>
            rw [evict_cons_of_stuck h hb, hsplit total fun p => by rw [movable_cons_of_stuck hb]]
            constructor
            · exact Or.inr
            · rintro (⟨rfl, ha⟩ | hmem)
              · rw [hb] at ha
                cases ha
              · exact hmem
        | false =>
            rw [evict_cons_of_not h hb, List.mem_cons, hsplit (total - size b) fun p => by
              rw [movable_cons_of_not hb, weight_cons, Nat.sub_sub]]
            constructor
            · rintro (rfl | hmem)
              · exact Or.inl ⟨rfl, hb⟩
              · exact Or.inr hmem
            · rintro (⟨rfl, -⟩ | hmem)
              · exact Or.inl rfl
              · exact Or.inr hmem

end Eviction

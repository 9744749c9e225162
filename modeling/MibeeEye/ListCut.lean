/-
**Cutting a list into pieces of bounded length.**

A sender that may put at most `c` items into one frame cuts what it has to send into pieces: as
many of length `c` as it takes, and a last one that is not longer.  The empty list is cut into one
empty piece, since a message without content still needs a frame.

Main definitions:

* `Wire.cut` — the pieces; computed with fuel, of which the length of the list is enough.

Main results:

* `Wire.cut_of_le`, `Wire.cut_of_lt` — the recursion equations;
* `Wire.cut_induction` — induction along the pieces;
* `Wire.flatten_cut` — the pieces put together are the list.
-/

import Mathlib.Algebra.Order.Ring.Nat

set_option relaxedAutoImplicit false
set_option autoImplicit false

namespace Wire

variable {α : Type}

/-- `Wire.cut` with `fuel` bounding the number of pieces. -/
@[grind =] def cutF (c : ℕ) : ℕ → List α → List (List α)
  | 0, l => [l]
  | fuel + 1, l => if l.length ≤ c then [l] else l.take c :: cutF c fuel (l.drop c)

/-- **The pieces of a list**, each of length `c` but the last, which may be shorter. -/
def cut (c : ℕ) (l : List α) : List (List α) := cutF c l.length l

/-- Induction along the pieces: a short list is one piece, a long one is a full piece and the
rest. -/
theorem cut_induction {c : ℕ} (hc : 1 ≤ c) {P : List α → Prop}
    (short : ∀ l, l.length ≤ c → P l) (long : ∀ l, c < l.length → P (l.drop c) → P l) :
    ∀ l, P l := by
  intro l
  induction h : l.length using Nat.strong_induction_on generalizing l with
  | _ n ih =>
      subst h
      rcases Nat.lt_or_ge c l.length with hlt | hle
      · exact long l hlt (ih (l.drop c).length (by rw [List.length_drop]; omega) _ rfl)
      · exact short l hle

theorem cutF_eq_cut {c : ℕ} (hc : 1 ≤ c) :
    ∀ (l : List α) (fuel : ℕ), l.length ≤ fuel → cutF c fuel l = cut c l := by
  intro l
  induction h : l.length using Nat.strong_induction_on generalizing l with
  | _ n ih =>
      subst h
      intro fuel hfuel
      cases fuel with
      | zero =>
          have : l = [] := by simpa using hfuel
          subst this
          rfl
      | succ fuel =>
          rw [cut]
          cases hlen : l.length with
          | zero => simp [cutF, hlen]
          | succ k =>
              rw [cutF, cutF]
              split
              · rfl
              · have hd : (l.drop c).length < l.length := by rw [List.length_drop]; omega
                rw [ih _ hd _ rfl fuel (by omega), ih _ hd _ rfl k (by omega)]

theorem cut_of_le {c : ℕ} {l : List α} (h : l.length ≤ c) : cut c l = [l] := by
  rw [cut]
  cases hlen : l.length with
  | zero => rfl
  | succ k => rw [cutF, if_pos h]

theorem cut_of_lt {c : ℕ} (hc : 1 ≤ c) {l : List α} (h : c < l.length) :
    cut c l = l.take c :: cut c (l.drop c) := by
  obtain ⟨k, hk⟩ : ∃ k, l.length = k + 1 := ⟨l.length - 1, by omega⟩
  rw [cut, hk, cutF, if_neg (by omega), cutF_eq_cut hc _ k (by rw [List.length_drop]; omega)]

theorem cut_ne_nil {c : ℕ} (hc : 1 ≤ c) (l : List α) : cut c l ≠ [] := by
  rcases Nat.lt_or_ge c l.length with hlt | hle
  · rw [cut_of_lt hc hlt]; simp
  · rw [cut_of_le hle]; simp

/-- The first piece and what is left for the others. -/
theorem cut_eq_cons {c : ℕ} (hc : 1 ≤ c) {l d : List α} {ds : List (List α)}
    (h : cut c l = d :: ds) :
    d = l.take c ∧ ((ds = [] ∧ l.length ≤ c) ∨ (ds = cut c (l.drop c) ∧ c < l.length)) := by
  rcases Nat.lt_or_ge c l.length with hlt | hle
  · rw [cut_of_lt hc hlt] at h
    obtain ⟨rfl, rfl⟩ := List.cons.inj h
    exact ⟨rfl, Or.inr ⟨rfl, hlt⟩⟩
  · rw [cut_of_le hle] at h
    obtain ⟨rfl, rfl⟩ := List.cons.inj h
    exact ⟨(List.take_of_length_le hle).symm, Or.inl ⟨rfl, hle⟩⟩

/-- The pieces put together are the list. -/
theorem flatten_cut {c : ℕ} (hc : 1 ≤ c) (l : List α) : (cut c l).flatten = l := by
  induction l using cut_induction hc with
  | short l h => rw [cut_of_le h]; simp
  | long l h ih => rw [cut_of_lt hc h, List.flatten_cons, ih, List.take_append_drop]

/-- No piece is too long. -/
theorem length_of_mem_cut {c : ℕ} (hc : 1 ≤ c) (l : List α) : ∀ d ∈ cut c l, d.length ≤ c := by
  induction l using cut_induction hc with
  | short l h =>
      rw [cut_of_le h]
      intro d hd
      rw [List.mem_singleton.1 hd]
      exact h
  | long l h ih =>
      rw [cut_of_lt hc h]
      intro d hd
      rcases List.mem_cons.1 hd with rfl | hd
      · rw [List.length_take]
        omega
      · exact ih d hd

/-- Every piece but the last is full. -/
theorem length_of_mem_dropLast_cut {c : ℕ} (hc : 1 ≤ c) (l : List α) :
    ∀ d ∈ (cut c l).dropLast, d.length = c := by
  induction l using cut_induction hc with
  | short l h => rw [cut_of_le h]; simp
  | long l h ih =>
      rw [cut_of_lt hc h, List.dropLast_cons_of_ne_nil (cut_ne_nil hc _)]
      intro d hd
      rcases List.mem_cons.1 hd with rfl | hd
      · rw [List.length_take]
        omega
      · exact ih d hd

end Wire

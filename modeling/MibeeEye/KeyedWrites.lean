/-
**Writes to a keyed store.**

A store holds one value under each key.  A list of writes is carried out in order, and a later write
under the same key replaces an earlier one.  What a key holds in the end is therefore the last value
written under it, or what it held before when none was.

Main definitions:

* `Writes.applyAll` — the store after a list of writes;
* `Writes.last` — the last value written under a key;
* `Writes.landing` — the writes ahead of the first one that fails.

Main results:

* `Writes.applyAll_eq_self_iff` — **writes leave a store as it is exactly when the last one under
  each key repeats what the key holds**;
* `Writes.applyAll_induction` — what holds of the store and of each write holds of the store after
  the writes.
-/

import Mathlib.Logic.Function.Basic
import Mathlib.Data.List.Basic

set_option relaxedAutoImplicit false
set_option autoImplicit false

namespace Writes

variable {κ α : Type*}

/-! ### Writes in order -/

section Store

variable [DecidableEq κ]

/-- The store after a list of writes. -/
def applyAll (s : κ → α) (ws : List (κ × α)) : κ → α :=
  ws.foldl (fun s w => Function.update s w.1 w.2) s

@[simp] theorem applyAll_nil (s : κ → α) : applyAll s [] = s := rfl

@[simp] theorem applyAll_cons (s : κ → α) (w : κ × α) (ws : List (κ × α)) :
    applyAll s (w :: ws) = applyAll (Function.update s w.1 w.2) ws := rfl

theorem applyAll_append (s : κ → α) (ws ws' : List (κ × α)) :
    applyAll s (ws ++ ws') = applyAll (applyAll s ws) ws' := List.foldl_append

/-- The last value written under a key. -/
@[grind =] def last (k : κ) : List (κ × α) → Option α
  | [] => none
  | w :: ws => (last k ws).or (if k = w.1 then some w.2 else none)

/-- The last value of a kind, when the writes are of the values of this kind. -/
theorem last_map {β : Type*} (f : α → β) (k : κ) (ws : List (κ × α)) :
    last k (ws.map fun w => (w.1, f w.2)) = (last k ws).map f := by
  induction ws with
  | nil => rfl
  | cons w ws ih =>
    rw [List.map_cons, last, last, ih]
    cases last k ws with
    | some v => rfl
    | none => by_cases hk : k = w.1 <;> simp [hk]

/-- What a key holds after the writes. -/
theorem applyAll_apply (s : κ → α) (ws : List (κ × α)) (k : κ) :
    applyAll s ws k = (last k ws).getD (s k) := by
  induction ws generalizing s with
  | nil => rfl
  | cons w ws ih =>
    rw [applyAll_cons, ih, last]
    cases last k ws with
    | some v => rfl
    | none =>
      by_cases hk : k = w.1
      · subst hk
        simp
      · simp [hk]

/-- **Writes leave a store as it is exactly when the last one under each key repeats what the key
holds.** -/
theorem applyAll_eq_self_iff {s : κ → α} {ws : List (κ × α)} :
    applyAll s ws = s ↔ ∀ k v, last k ws = some v → s k = v := by
  constructor
  · intro h k v hv
    rw [← congrFun h k, applyAll_apply, hv, Option.getD_some]
  · intro h
    funext k
    rw [applyAll_apply]
    cases hv : last k ws with
    | none => rfl
    | some v => exact (h k v hv).symm

/-- The same for a store in which a key may hold nothing. -/
theorem applyAll_some_eq_self_iff {s : κ → Option α} {ws : List (κ × α)} :
    applyAll s (ws.map fun w => (w.1, some w.2)) = s ↔
      ∀ k v, last k ws = some v → s k = some v := by
  rw [applyAll_eq_self_iff]
  simp only [last_map, Option.map_eq_some_iff]
  constructor
  · intro h k v hv
    exact h k (some v) ⟨v, hv, rfl⟩
  · rintro h k o ⟨v, hv, rfl⟩
    exact h k v hv

/-- What holds of the store and of each write holds of the store after the writes. -/
theorem applyAll_induction {p : κ → α → Prop} {s : κ → α} {ws : List (κ × α)}
    (hs : ∀ k, p k (s k)) (hw : ∀ w ∈ ws, p w.1 w.2) (k : κ) : p k (applyAll s ws k) := by
  induction ws generalizing s with
  | nil => exact hs k
  | cons w ws ih =>
    rw [applyAll_cons]
    refine ih ((Function.forall_update_iff s p).2 ⟨?_, ?_⟩) fun w' hw' => ?_
    · exact hw w List.mem_cons_self
    · exact fun j _ => hs j
    · exact hw w' (List.mem_cons_of_mem w hw')

end Store

/-! ### Writes that fail -/

/-- The writes ahead of the first one that fails; they are numbered from `n` on. -/
def landing (fails : ℕ → Bool) (n : ℕ) : List α → List α
  | [] => []
  | w :: ws => if fails n then [] else w :: landing fails (n + 1) ws

theorem landing_sublist (fails : ℕ → Bool) (n : ℕ) (ws : List α) :
    (landing fails n ws).Sublist ws := by
  induction ws generalizing n with
  | nil => exact List.Sublist.slnil
  | cons w ws ih =>
    rw [landing]
    split
    · exact List.nil_sublist _
    · exact (ih (n + 1)).cons_cons w

end Writes

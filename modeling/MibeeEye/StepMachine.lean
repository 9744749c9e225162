/-
**Machines that take labelled steps.**

A component that reacts to events is a partial step function from a state and an event to the next
state; an event that is not possible in a state has no step.  An execution is a list of events,
and what is claimed of a component is usually claimed of every state an execution passes through.

Main definitions:

* `Machine.exec` — running a list of events;
* `Machine.Passes` — a state that an execution passes through;
* `Machine.Occurs` — an event of an execution, with the state in which it occurs;
* `Machine.along` — a check of all of them;
* `Machine.Since` — something began, and has not ended since.

Main results:

* `Machine.exec_append` — an execution in two parts;
* `Machine.exec_map` — **the renaming rule**;
* `Machine.exec_invariant`, `Machine.passes_invariant` — **the invariant rule**, for executions
  whose events are of a given kind;
* `Machine.occurs_invariant` — the same for the states in which events occur;
* `Machine.passes_induction` — **the invariant rule along one execution**, for a step that keeps the
  invariant only where it occurs;
* `Machine.since_iff` — **the rule of what lasts**: a property that steps begin and end;
* `Machine.update_cases`, `Machine.proj_update`, `Machine.fresh_update`, `Machine.fresh_begin` — one
  of many numbered parties moves.
-/

import Mathlib.Data.List.Induction
import Mathlib.Logic.Function.Basic

set_option relaxedAutoImplicit false
set_option autoImplicit false

namespace Machine

variable {σ α : Type} (step : σ → α → Option σ)

/-- Run a list of events from a state. -/
def exec : σ → List α → Option σ
  | s, [] => some s
  | s, a :: as => (step s a).bind fun t => exec t as

/-- The state `t` is passed through when the events `as` are run from `s`. -/
def Passes (s : σ) (as : List α) (t : σ) : Prop := ∃ pre, pre <+: as ∧ exec step s pre = some t

/-- The event `a` occurs in state `u` when the events `as` are run from `s`. -/
def Occurs (s : σ) (as : List α) (u : σ) (a : α) : Prop :=
  ∃ pre, pre ++ [a] <+: as ∧ exec step s pre = some u

@[simp] theorem exec_nil (s : σ) : exec step s [] = some s := rfl

theorem exec_cons (s : σ) (a : α) (as : List α) :
    exec step s (a :: as) = (step s a).bind fun t => exec step t as := rfl

theorem exec_append (s : σ) (as bs : List α) :
    exec step s (as ++ bs) = (exec step s as).bind fun t => exec step t bs := by
  induction as generalizing s with
  | nil => rfl
  | cons a as ih =>
      rw [List.cons_append, exec_cons, exec_cons]
      cases step s a with
      | none => rfl
      | some t => exact ih t

variable {step}

/-- **The renaming rule**: a function of the states that each step respects is respected by
executions. -/
theorem exec_map {f : σ → σ} (hstep : ∀ s a, step (f s) a = (step s a).map f) (s : σ)
    (as : List α) : exec step (f s) as = (exec step s as).map f := by
  induction as generalizing s with
  | nil => rfl
  | cons a as ih =>
      rw [exec_cons, exec_cons, hstep]
      cases step s a with
      | none => rfl
      | some t => exact ih t

/-- **The invariant rule**: what holds at the start and is kept by every event of a kind holds after
every execution with events of that kind. -/
theorem exec_invariant {I : σ → Prop} {P : α → Prop}
    (hstep : ∀ s a t, P a → I s → step s a = some t → I t) : ∀ {as : List α} {s t : σ},
    (∀ a ∈ as, P a) → I s → exec step s as = some t → I t := by
  intro as
  induction as with
  | nil =>
      intro s t _ hs h
      cases h
      exact hs
  | cons a as ih =>
      intro s t hP hs h
      rw [exec_cons] at h
      obtain ⟨u, hu, h⟩ := Option.bind_eq_some_iff.1 h
      exact ih (fun b hb => hP b (by simp [hb])) (hstep s a u (hP a (by simp)) hs hu) h

/-- The same for every state passed through. -/
theorem passes_invariant {I : σ → Prop} {P : α → Prop}
    (hstep : ∀ s a t, P a → I s → step s a = some t → I t) {as : List α} {s t : σ}
    (hP : ∀ a ∈ as, P a) (hs : I s) (h : Passes step s as t) : I t := by
  obtain ⟨pre, hpre, h⟩ := h
  exact exec_invariant hstep (fun a ha => hP a (hpre.subset ha)) hs h

/-- And for every state in which an event occurs. -/
theorem occurs_invariant {I : σ → Prop} (hstep : ∀ s a t, I s → step s a = some t → I t)
    {as : List α} {s u : σ} {a : α} (hs : I s) (h : Occurs step s as u a) : I u := by
  obtain ⟨pre, -, h⟩ := h
  exact exec_invariant (P := fun _ => True) (fun s a t _ => hstep s a t) (fun _ _ => trivial) hs h

/-- **The invariant rule along one execution**: what holds at the start and is kept by every step
that occurs holds in every state passed through. -/
theorem passes_induction {I : σ → Prop} {as : List α} {s t : σ}
    (hstep : ∀ u a v, Occurs step s as u a → I u → step u a = some v → I v) (hs : I s)
    (h : Passes step s as t) : I t := by
  obtain ⟨pre, hpre, h⟩ := h
  induction pre using List.reverseRecOn generalizing t with
  | nil =>
      cases h
      exact hs
  | append_singleton pre a ih =>
      rw [exec_append] at h
      obtain ⟨u, hu, h⟩ := Option.bind_eq_some_iff.1 h
      rw [exec_cons] at h
      obtain ⟨v, hv, h⟩ := Option.bind_eq_some_iff.1 h
      cases h
      exact hstep u a t ⟨pre, hpre, hu⟩ (ih ((List.prefix_append _ _).trans hpre) hu) hv

/-- An execution whose events are all possible where they occur ends. -/
theorem exec_isSome {s : σ} {as : List α} (h : ∀ u a, Occurs step s as u a → (step u a).isSome) :
    (exec step s as).isSome := by
  induction as using List.reverseRecOn with
  | nil => rfl
  | append_singleton as a ih =>
      have hinit := ih fun u b ⟨pre, hpre, hu⟩ => h u b ⟨pre, hpre.trans (List.prefix_append as [a]), hu⟩
      obtain ⟨t, ht⟩ := Option.isSome_iff_exists.1 hinit
      obtain ⟨v, hv⟩ := Option.isSome_iff_exists.1 (h t a ⟨as, List.prefix_refl _, ht⟩)
      rw [exec_append, ht, Option.bind_some, exec_cons, hv]
      rfl

/-- The state after a step that occurs is passed through. -/
theorem Occurs.passes {as : List α} {a : α} {s u v : σ} (h : Occurs step s as u a)
    (hv : step u a = some v) : Passes step s as v := by
  obtain ⟨pre, hpre, hu⟩ := h
  refine ⟨pre ++ [a], hpre, ?_⟩
  rw [exec_append, hu, Option.bind_some, exec_cons, hv]
  rfl

/-- The state in which an event occurs is passed through. -/
theorem Occurs.passes_before {as : List α} {a : α} {s u : σ} (h : Occurs step s as u a) :
    Passes step s as u := by
  obtain ⟨pre, hpre, hu⟩ := h
  exact ⟨pre, (List.prefix_append _ _).trans hpre, hu⟩

/-- An event that occurs in a later part of an execution occurs in all of it. -/
theorem Occurs.of_append {as bs : List α} {a : α} {s t u : σ} (hexec : exec step s as = some t)
    (h : Occurs step t bs u a) : Occurs step s (as ++ bs) u a := by
  obtain ⟨pre, hpre, hu⟩ := h
  refine ⟨as ++ pre, ?_, ?_⟩
  · rw [List.append_assoc]
    exact (List.prefix_append_right_inj as).2 hpre
  · rw [exec_append, hexec, Option.bind_some, hu]

/-- An event that occurs in the beginning of an execution occurs in all of it. -/
theorem Occurs.append_right {as bs : List α} {a : α} {s u : σ} (h : Occurs step s as u a) :
    Occurs step s (as ++ bs) u a := by
  obtain ⟨pre, hpre, hu⟩ := h
  exact ⟨pre, hpre.trans (List.prefix_append as bs), hu⟩

/-- An event that occurs is in the list. -/
theorem Occurs.mem {as : List α} {a : α} {s u : σ} (h : Occurs step s as u a) : a ∈ as := by
  obtain ⟨pre, hpre, -⟩ := h
  exact hpre.subset (List.mem_append_right pre List.mem_cons_self)

/-- An event occurs at a place of the list. -/
theorem Occurs.exists_getElem {as : List α} {a : α} {s u : σ} (h : Occurs step s as u a) :
    ∃ i, as[i]? = some a ∧ exec step s (as.take i) = some u := by
  obtain ⟨pre, ⟨post, rfl⟩, hu⟩ := h
  refine ⟨pre.length, by simp, ?_⟩
  rw [List.append_assoc, List.take_left]
  exact hu

/-- One event occurs in the first state. -/
theorem occurs_singleton {a b : α} {s u : σ} (h : Occurs step s [a] u b) : u = s ∧ b = a := by
  obtain ⟨i, hi, hu⟩ := h.exists_getElem
  cases i with
  | zero =>
      cases hi
      cases hu
      exact ⟨rfl, rfl⟩
  | succ i => simp at hi

/-- What occurs from the first event on. -/
theorem occurs_cons {a b : α} {as : List α} {s u : σ} (h : Occurs step s (a :: as) u b) :
    (u = s ∧ b = a) ∨ ∃ t, step s a = some t ∧ Occurs step t as u b := by
  obtain ⟨pre, ⟨post, hpre⟩, hu⟩ := h
  cases pre with
  | nil =>
      cases hpre
      cases hu
      exact Or.inl ⟨rfl, rfl⟩
  | cons c pre =>
      obtain ⟨rfl, rfl⟩ := List.cons.inj hpre
      rw [exec_cons] at hu
      obtain ⟨t, ht, hu⟩ := Option.bind_eq_some_iff.1 hu
      exact Or.inr ⟨t, ht, pre, ⟨post, rfl⟩, hu⟩

variable (step) in
/-- A check of every event of an execution, in the state in which it occurs. -/
def along (p : σ → α → Bool) : σ → List α → Bool
  | _, [] => true
  | s, a :: as => p s a && (step s a).all fun t => along p t as

/-- What a check has found of the events that occur. -/
theorem forall_occurs_of_along {p : σ → α → Bool} : ∀ {as : List α} {s : σ},
    along step p s as = true → ∀ u a, Occurs step s as u a → p u a = true := by
  intro as
  induction as with
  | nil =>
      intro s _ u a h
      cases h.mem
  | cons b as ih =>
      intro s h u a hu
      rw [along, Bool.and_eq_true] at h
      rcases occurs_cons hu with ⟨rfl, rfl⟩ | ⟨t, ht, hu⟩
      · exact h.1
      · rw [ht] at h
        exact ih h.2 u a hu

/-- An event that occurs in an execution is a step between two states passed through. -/
theorem passes_of_mem {as : List α} {a : α} {s t : σ} (h : exec step s as = some t) (ha : a ∈ as) :
    ∃ u v, Passes step s as u ∧ Passes step s as v ∧ step u a = some v := by
  obtain ⟨pre, post, rfl⟩ := List.append_of_mem ha
  rw [exec_append] at h
  obtain ⟨u, hu, h⟩ := Option.bind_eq_some_iff.1 h
  rw [exec_cons] at h
  obtain ⟨v, hv, -⟩ := Option.bind_eq_some_iff.1 h
  refine ⟨u, v, ⟨pre, List.prefix_append _ _, hu⟩, ⟨pre ++ [a], ⟨post, by simp⟩, ?_⟩, hv⟩
  rw [exec_append, hu, Option.bind_some, exec_cons, hv]
  rfl

/-! ### What lasts -/

section Since

variable (step) in
/-- An event of the execution began it, and none of those behind it has ended it. -/
def Since (starts ends : σ → α → Prop) (s : σ) (as : List α) : Prop :=
  ∃ pre a post u v, as = pre ++ a :: post ∧ exec step s pre = some u ∧ starts u a ∧
    step u a = some v ∧ ∀ w b, Occurs step v post w b → ¬ ends w b

variable {starts ends : σ → α → Prop} {s t u : σ} {as : List α} {a : α}

/-- What occurs in an execution with one event more. -/
theorem occurs_concat (h : exec step s as = some t) {w : σ} {b : α}
    (hw : Occurs step s (as ++ [a]) w b) : Occurs step s as w b ∨ (w = t ∧ b = a) := by
  obtain ⟨pre, hpre, hu⟩ := hw
  rcases List.prefix_concat_iff.1 hpre with heq | hpre
  · obtain ⟨rfl, hab⟩ := List.append_inj' heq rfl
    rw [h] at hu
    exact Or.inr ⟨(Option.some.inj hu).symm, List.head_eq_of_cons_eq hab⟩
  · exact Or.inl ⟨pre, hpre, hu⟩

/-- It began with the last event. -/
theorem since_of_starts {v : σ} (h : exec step s as = some t) (hstart : starts t a)
    (hv : step t a = some v) : Since step starts ends s (as ++ [a]) := by
  refine ⟨as, a, [], t, v, rfl, h, hstart, hv, ?_⟩
  intro w b hw
  exact absurd hw.mem List.not_mem_nil

/-- It began before the last event, which has not ended it. -/
theorem Since.concat (h : exec step s as = some t) (hsince : Since step starts ends s as)
    (hend : ¬ ends t a) : Since step starts ends s (as ++ [a]) := by
  obtain ⟨pre, b, post, u, v, rfl, hu, hstart, hv, hlast⟩ := hsince
  refine ⟨pre, b, post ++ [a], u, v, by simp, hu, hstart, hv, ?_⟩
  have hpost : exec step v post = some t := by
    rwa [exec_append, hu, Option.bind_some, exec_cons, hv, Option.bind_some] at h
  intro w c hw
  rcases occurs_concat hpost hw with hw | ⟨rfl, rfl⟩
  · exact hlast w c hw
  · exact hend

/-- It began with the last event, or before it. -/
theorem Since.cases_concat (h : exec step s as = some t)
    (hsince : Since step starts ends s (as ++ [a])) :
    starts t a ∨ Since step starts ends s as ∧ ¬ ends t a := by
  obtain ⟨pre, b, post, u, v, heq, hu, hstart, hv, hlast⟩ := hsince
  induction post using List.reverseRecOn with
  | nil =>
      obtain ⟨rfl, hab⟩ := List.append_inj' heq rfl
      obtain rfl := List.head_eq_of_cons_eq hab
      rw [h] at hu
      exact Or.inl (Option.some.inj hu ▸ hstart)
  | append_singleton post c _ =>
      rw [← List.cons_append, ← List.append_assoc] at heq
      obtain ⟨rfl, hac⟩ := List.append_inj' heq rfl
      obtain rfl := List.head_eq_of_cons_eq hac
      have hpost : exec step v post = some t := by
        rwa [exec_append, hu, Option.bind_some, exec_cons, hv, Option.bind_some] at h
      refine Or.inr ⟨⟨pre, b, post, u, v, rfl, hu, hstart, hv, ?_⟩, ?_⟩
      · exact fun w d hw => hlast w d hw.append_right
      · exact hlast t a ⟨post, List.prefix_refl _, hpost⟩

/-- **The rule of what lasts**: a property that each step begins, or keeps unless it ends it, holds after
an execution exactly if it was begun and not ended since. -/
theorem since_iff {held : σ → Prop}
    (hstep : ∀ u a v, step u a = some v → (held v ↔ starts u a ∨ held u ∧ ¬ ends u a))
    (hs : ¬ held s) (h : exec step s as = some t) : held t ↔ Since step starts ends s as := by
  induction as using List.reverseRecOn generalizing t with
  | nil =>
      cases h
      refine iff_of_false hs ?_
      rintro ⟨pre, a, post, u, v, heq, -⟩
      simp at heq
  | append_singleton as a ih =>
      rw [exec_append] at h
      obtain ⟨u, hu, h⟩ := Option.bind_eq_some_iff.1 h
      rw [exec_cons] at h
      obtain ⟨v, hv, h⟩ := Option.bind_eq_some_iff.1 h
      cases h
      rw [hstep u a t hv, ih hu]
      constructor
      · rintro (hstart | ⟨hsince, hend⟩)
        · exact since_of_starts hu hstart hv
        · exact hsince.concat hu hend
      · exact Since.cases_concat hu

end Since

/-! ### Numbered parties -/

section Parties

variable {ι β : Type}

/-- What holds of a party after one of them has moved. -/
theorem update_cases [DecidableEq ι] {f : ι → β} {i j : ι} {b : β} {p : β → Prop}
    (h : p (Function.update f i b j)) : (j = i ∧ p b) ∨ (j ≠ i ∧ p (f j)) := by
  by_cases hj : j = i
  · rw [hj, Function.update_self] at h
    exact .inl ⟨hj, h⟩
  · rw [Function.update_of_ne hj] at h
    exact .inr ⟨hj, h⟩

/-- What a move leaves as it was of the party that moves, it leaves as it was of all of them. -/
theorem proj_update [DecidableEq ι] {γ : Type} {f : ι → β} {i : ι} {b : β} (g : β → γ)
    (h : g b = g (f i)) (j : ι) : g (Function.update f i b j) = g (f j) := by
  rw [Function.apply_update (fun _ => g), h, Function.update_eq_self i fun k => g (f k)]

variable {f : ℕ → β} {unused : β} {next : ℕ}

/-- A party that has begun moves, and those that have not begun do not. -/
theorem fresh_update (h : ∀ k, next ≤ k → f k = unused) {n : ℕ} (hn : n < next) (b : β) :
    ∀ k, next ≤ k → Function.update f n b k = unused := by
  intro k hk
  rw [Function.update_of_ne (by omega)]
  exact h k hk

/-- A party begins. -/
theorem fresh_begin (h : ∀ k, next ≤ k → f k = unused) (b : β) :
    ∀ k, next + 1 ≤ k → Function.update f next b k = unused := by
  intro k hk
  rw [Function.update_of_ne (by omega)]
  exact h k (by omega)

/-- A party that is not `unused` has begun. -/
theorem lt_of_ne_unused (h : ∀ k, next ≤ k → f k = unused) {k : ℕ} (hk : f k ≠ unused) :
    k < next := by
  by_contra hnext
  exact hk (h k (by omega))

end Parties

end Machine

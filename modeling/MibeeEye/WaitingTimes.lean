/-
**Cooldowns.**

Something that repeats is let through once, and then not again before a window of time is over.  The gate
remembers for each key when it let something through last, so what it has refused does not count.

A component that has such a gate is a machine, some of whose steps ask the gate, and what is claimed is
claimed of all runs of the machine.

Main definitions:

* `Cooldown.gate` — asking the gate;
* `Cooldown.Uses` — the steps of a machine change what the gate remembers only by asking it;
* `Cooldown.Passes` — a step asks, and is let through.

Main results:

* `Cooldown.Uses.last_iff`, `Cooldown.Uses.last_eq_none_iff` — **what the gate remembers** is when it let
  something through last;
* `Cooldown.Uses.passes_iff` — **a step is let through exactly if the last one was a window ago**;
* `Cooldown.Uses.spaced` — any two that are let through are a window apart, while the clock does not go
  back behind the first of them.
-/

import MibeeEye.StepMachine

set_option relaxedAutoImplicit false
set_option autoImplicit false

namespace Cooldown

variable {κ σ α : Type}

/-! ### The gate -/

/-- What the gate is asked. -/
structure Ask (κ : Type) where
  key : κ
  now : ℕ
  window : ℕ
  deriving DecidableEq, Repr

/-- The window is over. -/
def isOver (last : Option ℕ) (now window : ℕ) : Bool :=
  match last with
  | some t => decide (window ≤ now - t)
  | none => true

@[simp] theorem isOver_none (now window : ℕ) : isOver none now window = true := rfl

@[simp] theorem isOver_some (t now window : ℕ) :
    isOver (some t) now window = decide (window ≤ now - t) := rfl

/-- The window is over since whenever it was. -/
theorem isOver_iff {last : Option ℕ} {now window : ℕ} :
    isOver last now window = true ↔ ∀ t, last = some t → window ≤ now - t := by
  cases last with
  | none => simp
  | some t => simp

/-- Ask the gate. -/
def gate [DecidableEq κ] (last : κ → Option ℕ) (ask : Ask κ) : Bool × (κ → Option ℕ) :=
  if isOver (last ask.key) ask.now ask.window then
    (true, Function.update last ask.key (some ask.now))
  else (false, last)

section Gate

variable [DecidableEq κ] {last : κ → Option ℕ} {ask : Ask κ} {k : κ} {n : ℕ}

@[simp] theorem gate_fst : (gate last ask).1 = isOver (last ask.key) ask.now ask.window := by
  unfold gate
  split
  · rename_i h
    exact h.symm
  · rename_i h
    exact (Bool.eq_false_iff.2 h).symm

/-- **What the gate remembers when it was asked.** -/
theorem gate_snd_iff : (gate last ask).2 k = some n ↔
    ((ask.key = k ∧ ask.now = n) ∧ (gate last ask).1 = true) ∨
      last k = some n ∧ ¬ (ask.key = k ∧ (gate last ask).1 = true) := by
  rw [gate_fst]
  unfold gate
  by_cases hover : isOver (last ask.key) ask.now ask.window = true
  · rw [if_pos hover]
    by_cases hk : k = ask.key
    · subst hk
      simp [hover]
    · simp [Function.update_of_ne hk, Ne.symm hk]
  · rw [if_neg hover]
    simp [hover]

end Gate

/-! ### A machine that asks -/

variable [DecidableEq κ] (step : σ → α → Option σ) (last : σ → κ → Option ℕ)
  (asks : σ → α → Option (Ask κ))

/-- The steps of the machine change what the gate remembers only by asking it. -/
structure Uses : Prop where
  last_step : ∀ s a t, step s a = some t →
    last t = ((asks s a).map fun ask => (gate (last s) ask).2).getD (last s)

/-- The step asks for this key at this time, and is let through. -/
def Passes (k : κ) (n : ℕ) (s : σ) (a : α) : Prop :=
  ∃ ask, asks s a = some ask ∧ ask.key = k ∧ ask.now = n ∧ (gate (last s) ask).1 = true

/-- The step is let through for this key. -/
def PassesAt (k : κ) (s : σ) (a : α) : Prop := ∃ n, Passes last asks k n s a

variable {step last asks} {s t : σ} {a b : α} {as bs : List α} {k : κ} {n m : ℕ}

/-- What one step does to what the gate remembers. -/
theorem Uses.last_step_iff (h : Uses step last asks) (hstep : step s a = some t) :
    last t k = some n ↔
      Passes last asks k n s a ∨ last s k = some n ∧ ¬ PassesAt last asks k s a := by
  rw [h.last_step s a t hstep]
  cases hask : asks s a with
  | none => simp [Passes, PassesAt, hask]
  | some ask =>
      rw [Option.map_some, Option.getD_some, gate_snd_iff]
      have hpasses : ∀ n, Passes last asks k n s a ↔
          (ask.key = k ∧ ask.now = n) ∧ (gate (last s) ask).1 = true := by
        intro n
        simp only [Passes, hask, Option.some.injEq, exists_eq_left', and_assoc]
      have hat : PassesAt last asks k s a ↔ ask.key = k ∧ (gate (last s) ask).1 = true := by
        simp only [PassesAt, hpasses]
        exact ⟨fun ⟨n, h⟩ => ⟨h.1.1, h.2⟩, fun h => ⟨ask.now, ⟨h.1, rfl⟩, h.2⟩⟩
      rw [hpasses, hat]

/-- **What the gate remembers** is when it let something through last. -/
theorem Uses.last_iff (h : Uses step last asks) (hs : last s k = none)
    (hexec : Machine.exec step s as = some t) :
    last t k = some n ↔
      Machine.Since step (Passes last asks k n) (PassesAt last asks k) s as :=
  @Machine.since_iff σ α step (Passes last asks k n) (PassesAt last asks k) s t as
    (fun u => last u k = some n) (fun _ _ _ hstep => h.last_step_iff hstep) (by simp [hs]) hexec

/-- Nothing is remembered while nothing was let through. -/
theorem Uses.last_eq_none_iff (h : Uses step last asks) (hs : last s k = none)
    (hexec : Machine.exec step s as = some t) :
    last t k = none ↔ ∀ u b, Machine.Occurs step s as u b → ¬ PassesAt last asks k u b := by
  induction as using List.reverseRecOn generalizing t with
  | nil =>
      cases hexec
      exact iff_of_true hs fun _ _ hoccurs => absurd hoccurs.mem List.not_mem_nil
  | append_singleton as a ih =>
      rw [Machine.exec_append] at hexec
      obtain ⟨u, hu, hexec⟩ := Option.bind_eq_some_iff.1 hexec
      rw [Machine.exec_cons] at hexec
      obtain ⟨v, hv, hexec⟩ := Option.bind_eq_some_iff.1 hexec
      cases hexec
      have hstep : last t k = none ↔ last u k = none ∧ ¬ PassesAt last asks k u a := by
        constructor
        · intro hnone
          have hkept : ∀ m, ¬ (Passes last asks k m u a ∨
              last u k = some m ∧ ¬ PassesAt last asks k u a) := by
            intro m hm
            have hsome := (h.last_step_iff hv).2 hm
            rw [hnone] at hsome
            cases hsome
          have hat : ¬ PassesAt last asks k u a := fun ⟨m, hm⟩ => hkept m (Or.inl hm)
          exact ⟨Option.eq_none_iff_forall_ne_some.2 fun m hm => hkept m (Or.inr ⟨hm, hat⟩), hat⟩
        · rintro ⟨hnone, hat⟩
          refine Option.eq_none_iff_forall_ne_some.2 fun m hm => ?_
          rcases (h.last_step_iff hv).1 hm with hpass | ⟨hold, -⟩
          · exact hat ⟨m, hpass⟩
          · rw [hnone] at hold
            cases hold
      rw [hstep, ih hu]
      constructor
      · rintro ⟨hbefore, hlast⟩ w b hw
        rcases Machine.occurs_concat hu hw with hw | ⟨rfl, rfl⟩
        · exact hbefore w b hw
        · exact hlast
      · intro hall
        exact ⟨fun w b hw => hall w b hw.append_right, hall u a ⟨as, List.prefix_refl _, hu⟩⟩

/-- **A step is let through exactly if it asks, and the last one was a window ago.** -/
theorem Uses.passes_iff (h : Uses step last asks) (hs : last s k = none)
    (hexec : Machine.exec step s as = some t) :
    Passes last asks k n t a ↔ ∃ ask, asks t a = some ask ∧ ask.key = k ∧ ask.now = n ∧
      ∀ m, Machine.Since step (Passes last asks k m) (PassesAt last asks k) s as →
        ask.window ≤ ask.now - m := by
  unfold Passes
  refine exists_congr fun ask => and_congr_right fun _ => and_congr_right fun hk =>
    and_congr_right fun _ => ?_
  rw [gate_fst, isOver_iff, hk]
  exact forall_congr' fun m => by rw [h.last_iff hs hexec]; rfl

/-- What was let through at a time is remembered with a time that is not before it, if nothing asks with
an earlier one. -/
theorem Uses.last_of_passes (h : Uses step last asks) (hpass : Passes last asks k n s a)
    (hexec : Machine.exec step s (a :: as) = some t)
    (hclock : ∀ u b v m, Machine.Occurs step s (a :: as) u b → step u b = some v →
      Passes last asks k m u b → n ≤ m) :
    ∃ m, last t k = some m ∧ n ≤ m := by
  induction as using List.reverseRecOn generalizing t with
  | nil =>
      rw [Machine.exec_cons] at hexec
      obtain ⟨u, hu, hexec⟩ := Option.bind_eq_some_iff.1 hexec
      cases hexec
      exact ⟨n, (h.last_step_iff hu).2 (Or.inl hpass), Nat.le_refl n⟩
  | append_singleton as b ih =>
      rw [← List.cons_append, Machine.exec_append] at hexec
      obtain ⟨u, hu, hexec⟩ := Option.bind_eq_some_iff.1 hexec
      rw [Machine.exec_cons] at hexec
      obtain ⟨v, hv, hexec⟩ := Option.bind_eq_some_iff.1 hexec
      cases hexec
      by_cases hat : PassesAt last asks k u b
      · obtain ⟨m, hm⟩ := hat
        have hoccurs : Machine.Occurs step s (a :: (as ++ [b])) u b := ⟨a :: as, by simp, hu⟩
        exact ⟨m, (h.last_step_iff hv).2 (Or.inl hm), hclock u b t m hoccurs hv hm⟩
      · obtain ⟨m, hm, hle⟩ := ih hu fun w c v m hw => hclock w c v m (by simpa using hw.append_right)
        exact ⟨m, (h.last_step_iff hv).2 (Or.inr ⟨hm, hat⟩), hle⟩

/-- **Any two that are let through are a window apart**, while the clock does not go back behind the first
of them. -/
theorem Uses.spaced (h : Uses step last asks) (hpass : Passes last asks k n s a)
    (hexec : Machine.exec step s (a :: as) = some t)
    (hclock : ∀ u b v m, Machine.Occurs step s (a :: as) u b → step u b = some v →
      Passes last asks k m u b → n ≤ m)
    (hlast : Passes last asks k m t b) : ∃ ask, asks t b = some ask ∧ ask.window ≤ m - n := by
  obtain ⟨l, hl, hle⟩ := h.last_of_passes hpass hexec hclock
  obtain ⟨ask, hask, rfl, rfl, hgate⟩ := hlast
  rw [gate_fst, isOver_iff] at hgate
  have hwindow := hgate l hl
  exact ⟨ask, hask, by omega⟩

end Cooldown

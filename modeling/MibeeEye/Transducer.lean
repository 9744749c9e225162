/-
**Machines that answer every input.**

A machine takes an input to its next state and an output.  Machines that run side by side get the same
inputs; what one of them does depends on its own state alone.

Main definitions:

* `Transducer.after` — the state after some inputs;
* `Transducer.outputAt`, `Transducer.log` — the output for one of them, and all of them;
* `Transducer.bank` — machines side by side;
* `Transducer.first` — the first input whose output is of a kind.

Main results:

* `Transducer.after_induction` — **the invariant rule**, for invariants that speak of the inputs;
* `Transducer.log_append` — inputs in two parts;
* `Transducer.outputAt_append` — later inputs change no output;
* `Transducer.after_bank` — **machines side by side run as each alone**;
* `Transducer.outputAt_congr` — inputs that a machine does not tell apart;
* `Transducer.first_map` — **the simulation rule**: machines that give such an output at the same time.
-/

import Mathlib.Data.List.Induction

set_option relaxedAutoImplicit false
set_option autoImplicit false

namespace Transducer

variable {σ α β γ : Type} (step : σ → α → σ × β)

/-- The state after some inputs. -/
def after (s : σ) (as : List α) : σ := as.foldl (fun s a => (step s a).1) s

/-- The output for the input at a place. -/
def outputAt (s : σ) (as : List α) (k : ℕ) : Option β :=
  as[k]?.map fun a => (step (after step s (as.take k)) a).2

/-- The inputs with their outputs. -/
@[grind =] def log (s : σ) (as : List α) : List (α × β) :=
  match as with
  | [] => []
  | a :: as => (a, (step s a).2) :: log (step s a).1 as

/-- Machines side by side, with the same input. -/
def bank (ss : List σ) (a : α) : List σ × List β :=
  (ss.map fun s => (step s a).1, ss.map fun s => (step s a).2)

variable {step} {s : σ} {as bs : List α} {a : α} {k : ℕ}

@[simp] theorem after_nil : after step s [] = s := rfl

theorem after_concat : after step s (as ++ [a]) = (step (after step s as) a).1 := by
  rw [after, List.foldl_append]
  rfl

theorem after_append : after step s (as ++ bs) = after step (after step s as) bs := List.foldl_append

@[simp] theorem log_nil : log step s [] = [] := rfl

theorem log_append : log step s (as ++ bs) = log step s as ++ log step (after step s as) bs := by
  induction as generalizing s with
  | nil => rfl
  | cons a as ih => exact congrArg (List.cons _) ih

theorem log_concat : log step s (as ++ [a]) = log step s as ++ [(a, (step (after step s as) a).2)] :=
  log_append

@[simp] theorem map_fst_log (s : σ) (as : List α) : (log step s as).map Prod.fst = as := by
  induction as generalizing s with
  | nil => rfl
  | cons a as ih => exact congrArg (List.cons a) (ih _)

/-- **The invariant rule**: what holds before the first input, and after an input if before it. -/
theorem after_induction {I : List α → σ → Prop} (hnil : I [] s)
    (hstep : ∀ as a, I as (after step s as) → I (as ++ [a]) (step (after step s as) a).1)
    (as : List α) : I as (after step s as) := by
  induction as using List.reverseRecOn with
  | nil => exact hnil
  | append_singleton as a ih =>
      rw [after_concat]
      exact hstep as a ih

/-- Later inputs change no output. -/
theorem outputAt_append (h : k < as.length) :
    outputAt step s (as ++ bs) k = outputAt step s as k := by
  rw [outputAt, outputAt, List.getElem?_append_left h, List.take_append_of_le_length (Nat.le_of_lt h)]

/-- The output for the last input. -/
theorem outputAt_last :
    outputAt step s (as ++ [a]) as.length = some (step (after step s as) a).2 := by
  rw [outputAt, List.getElem?_concat_length, List.take_left' rfl]
  rfl

/-- **Machines side by side run as each alone.** -/
theorem after_bank (ss : List σ) (as : List α) :
    after (bank step) ss as = ss.map fun s => after step s as := by
  induction as using List.reverseRecOn with
  | nil => exact (List.map_id ss).symm
  | append_singleton as a ih =>
      rw [after_concat, ih, bank, List.map_map]
      exact List.map_congr_left fun s _ => after_concat.symm

/-- **Inputs that a machine does not tell apart** have the same outputs. -/
theorem outputAt_congr {f : α → γ} {I : σ → Prop} (hs : I s) (hstep : ∀ s a, I s → I (step s a).1)
    (htell : ∀ s a b, I s → f a = f b → step s a = step s b) (h : as.map f = bs.map f) (k : ℕ) :
    outputAt step s as k = outputAt step s bs k := by
  have hafter : ∀ {as bs : List α}, as.map f = bs.map f →
      after step s as = after step s bs ∧ I (after step s as) := by
    intro as
    induction as using List.reverseRecOn with
    | nil =>
        intro bs h
        rw [List.map_eq_nil_iff.1 h.symm]
        exact ⟨rfl, hs⟩
    | append_singleton as a ih =>
        intro bs h
        rw [List.map_append, List.map_singleton] at h
        obtain ⟨bs', b', rfl, hbs, hb⟩ := List.map_eq_append_iff.1 h.symm
        obtain ⟨b, rfl, hfb⟩ := List.map_eq_singleton_iff.1 hb
        obtain ⟨hsame, hI⟩ := ih hbs.symm
        rw [after_concat, after_concat, ← hsame, htell _ a b hI hfb.symm]
        exact ⟨rfl, hstep _ b hI⟩
  obtain ⟨hsame, hI⟩ := hafter (by rw [List.map_take, List.map_take, h] :
    (as.take k).map f = (bs.take k).map f)
  have hinput : as[k]?.map f = bs[k]?.map f := by rw [← List.getElem?_map, h, List.getElem?_map]
  rw [outputAt, outputAt, ← hsame]
  cases ha : as[k]? with
  | none =>
      rw [ha, Option.map_none] at hinput
      rw [Option.map_eq_none_iff.1 hinput.symm]
  | some a =>
      rw [ha, Option.map_some] at hinput
      obtain ⟨b, hb, hfb⟩ := Option.map_eq_some_iff.1 hinput.symm
      rw [hb, Option.map_some, Option.map_some, htell _ a b hI hfb.symm]

/-! ### The first output of a kind -/

section First

variable {τ δ : Type} {p : β → Bool}

variable (step p) in
/-- The first input whose output is of a kind. -/
def first (s : σ) (as : List α) : Option α := ((log step s as).find? fun x => p x.2).map Prod.fst

@[simp] theorem first_nil : first step p s [] = none := rfl

theorem first_cons :
    first step p s (a :: as) = if p (step s a).2 then some a else first step p (step s a).1 as := by
  rw [first, log, List.find?_cons]
  cases p (step s a).2 <;> rfl

theorem first_append : first step p s (as ++ bs) =
    (first step p s as).or (first step p (after step s as) bs) := by
  rw [first, log_append, List.find?_append, Option.map_or]
  rfl

/-- **The simulation rule**: two machines whose states stay related until one of them has such an output
have the first of them for the same input. -/
theorem first_map {step' : τ → γ → τ × δ} {p' : δ → Bool} {f : α → γ} {R : σ → τ → Prop} {P : α → Prop}
    (hstep : ∀ s t a, P a → R s t → p (step s a).2 = p' (step' t (f a)).2 ∧
      (p (step s a).2 = false → R (step s a).1 (step' t (f a)).1))
    {t : τ} (hs : R s t) (hP : ∀ a ∈ as, P a) :
    (first step p s as).map f = first step' p' t (as.map f) := by
  induction as generalizing s t with
  | nil => rfl
  | cons a as ih =>
      obtain ⟨hp, hnext⟩ := hstep s t a (hP a List.mem_cons_self) hs
      rw [List.map_cons, first_cons, first_cons, ← hp]
      cases hpa : p (step s a).2 with
      | true => rfl
      | false => exact ih (hnext hpa) fun b hb => hP b (List.mem_cons_of_mem a hb)

end First

end Transducer

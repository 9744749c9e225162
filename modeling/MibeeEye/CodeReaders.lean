/-
**Readers of codes.**

A reader takes symbols off a cursor and returns a value and the cursor behind them.  It *reads a code*
as a value when it returns that value, and stops right behind the code, wherever the code stands
next.  Readers of codes one after the other read the codes one after the other.

Main definitions:

* `CodeReaders.Cursor` — a position in a sequence of symbols;
* `CodeReaders.Reads` — a reader reads a code as a value;
* `CodeReaders.optionally` — a read that depends on what was read before;
* `CodeReaders.times`, `CodeReaders.forEach` — loops of readers whose values are dropped.

Main results:

* `CodeReaders.Reads.bind` — **codes one after the other**;
* `CodeReaders.Reads.times`, `CodeReaders.Reads.forEach` — as many codes as a loop has rounds.
-/

import MibeeEye.CheckedReads
import Mathlib.Data.List.Forall2
import Mathlib.Data.List.Infix

set_option relaxedAutoImplicit false
set_option autoImplicit false

namespace CodeReaders

/-! ### Cursors -/

/-- A position in a sequence of symbols, which is known by the symbols that are left. -/
class Cursor (σ : Type) (β : outParam Type) where
  remaining : σ → List β
  skip : σ → ℕ → σ
  skip_zero : ∀ c, skip c 0 = c
  skip_skip : ∀ c m n, skip (skip c m) n = skip c (m + n)
  remaining_skip : ∀ c n, remaining (skip c n) = (remaining c).drop n

variable {σ β ε α α' γ δ : Type} [Cursor σ β]

/-- Behind a code stands what follows it. -/
theorem remaining_skip_of_append {code rest : List β} {c : σ}
    (h : Cursor.remaining c = code ++ rest) :
    Cursor.remaining (Cursor.skip c code.length) = rest := by
  rw [Cursor.remaining_skip, h, List.drop_left]

/-! ### Reading a code -/

/-- A reader reads a code as a value, wherever it stands next. -/
def Reads (read : σ → Except ε (α × σ)) (code : List β) (a : α) : Prop :=
  ∀ c, code <+: Cursor.remaining c → read c = .ok (a, Cursor.skip c code.length)

namespace Reads

variable {read : σ → Except ε (α × σ)} {code code' : List β} {a : α} {a' : α'}

/-- Nothing is read where nothing is left to be done. -/
theorem pure (a : α) : Reads (fun c : σ => (Except.ok (a, c) : Except ε (α × σ))) [] a := by
  intro c _
  simp [Cursor.skip_zero]

/-- **Codes one after the other.** -/
theorem bind {next : α × σ → Except ε (α' × σ)} (hread : Reads read code a)
    (hnext : Reads (fun c => next (a, c)) code' a') :
    Reads (fun c => read c >>= next) (code ++ code') a' := by
  rintro c ⟨rest, hrest⟩
  rw [List.append_assoc] at hrest
  have hbehind : code' <+: Cursor.remaining (Cursor.skip c code.length) := by
    rw [remaining_skip_of_append hrest.symm]
    exact List.prefix_append code' rest
  show (read c >>= next) = _
  rw [hread c ⟨_, hrest⟩, Checked.ok_bind, List.length_append, ← Cursor.skip_skip]
  exact hnext _ hbehind

/-- The last reader of a chain. -/
theorem map {f : α × σ → Except ε (α' × σ)} (hread : Reads read code a)
    (hf : ∀ c, f (a, c) = .ok (a', c)) : Reads (fun c => read c >>= f) code a' := by
  have hlast : Reads (fun c => f (a, c)) [] a' := by
    simp only [hf]
    exact pure a'
  simpa using hread.bind hlast

end Reads

/-! ### Optional codes -/

/-- A read that is made in one of two cases only. -/
def optionally (present : Bool) (read : σ → Except ε (α × σ)) (c : σ) :
    Except ε (Option α × σ) :=
  if present then do
    let (a, c) ← read c
    return (some a, c)
  else .ok (none, c)

/-- A code that is there when it is read. -/
theorem Reads.optionally {present : Bool} {read : σ → Except ε (α × σ)} {code : δ → List β}
    {value : δ → α} {o : Option δ} (hpresent : o.isSome = present)
    (h : ∀ e ∈ o, Reads read (code e) (value e)) :
    Reads (CodeReaders.optionally present read) (o.elim [] code) (o.map value) := by
  subst hpresent
  cases o with
  | none => exact Reads.pure none
  | some e => exact (h e rfl).map fun c => rfl

/-! ### Loops -/

/-- A number of reads, whose values are dropped. -/
def times (read : σ → Except ε (α × σ)) : ℕ → σ → Except ε (Unit × σ)
  | 0, c => .ok ((), c)
  | n + 1, c => do
      let (_, c) ← read c
      times read n c

/-- A read for each of some items, whose values are dropped. -/
def forEach (read : γ → σ → Except ε (α × σ)) : List γ → σ → Except ε (Unit × σ)
  | [], c => .ok ((), c)
  | item :: items, c => do
      let (_, c) ← read item c
      forEach read items c

/-- As many codes as there are reads. -/
theorem Reads.times {read : σ → Except ε (α × σ)} {code : δ → List β} {entries : List δ}
    (h : ∀ e ∈ entries, ∃ a, Reads read (code e) a) :
    Reads (CodeReaders.times read entries.length) (entries.flatMap code) () := by
  induction entries with
  | nil => exact Reads.pure ()
  | cons e entries ih =>
      obtain ⟨a, ha⟩ := h e (List.mem_cons_self ..)
      exact ha.bind (ih fun e he => h e (List.mem_cons_of_mem _ he))

/-- A code for each of the items. -/
theorem Reads.forEach {read : γ → σ → Except ε (α × σ)} {code : δ → List β} {items : List γ}
    {entries : List δ} (h : List.Forall₂ (fun i e => ∃ a, Reads (read i) (code e) a) items entries) :
    Reads (CodeReaders.forEach read items) (entries.flatMap code) () := by
  induction h with
  | nil => exact Reads.pure ()
  | cons hread _ ih =>
      obtain ⟨a, ha⟩ := hread
      exact ha.bind ih

end CodeReaders

/-
**Readers that are polled.**

A reader that waits for its input takes the symbols that have arrived, one after the other, and
either finishes or keeps what it has read so far until more arrive.  When it finishes, the symbols
that follow are left where they are.

Main definitions:

* `PolledReader.Progress` — a reader that goes on, or what it has read;
* `PolledReader.poll` — a reader is given the symbols that have arrived;
* `PolledReader.Goes`, `PolledReader.Reads` — what a reader does with a word.

Main results:

* `PolledReader.Goes.trans`, `PolledReader.Goes.reads` — the parts of a word;
* `PolledReader.Reads.cases` — **a reader that has read a part of a word, when more arrives**: it
  finishes with the word, or goes on.
-/

import Mathlib.Data.List.Basic

set_option relaxedAutoImplicit false
set_option autoImplicit false

namespace PolledReader

variable {ρ α β : Type}

/-- What a reader does with a symbol. -/
inductive Progress (ρ α : Type)
  | more (r : ρ)
  | done (a : α)
  deriving DecidableEq, Repr

/-- A reader is polled: it takes symbols until it finishes or there are none left. -/
@[grind =] def poll (feed : ρ → β → Progress ρ α) : ρ → List β → Progress ρ α × List β
  | r, [] => (.more r, [])
  | r, b :: bs =>
    match feed r b with
    | .more r' => poll feed r' bs
    | .done a => (.done a, bs)

/-- The reader takes the word and goes on. -/
def Goes (feed : ρ → β → Progress ρ α) (r : ρ) (w : List β) (r' : ρ) : Prop :=
  ∀ bs, poll feed r (w ++ bs) = poll feed r' bs

/-- The reader finishes at the end of the word. -/
def Reads (feed : ρ → β → Progress ρ α) (r : ρ) (w : List β) (a : α) : Prop :=
  ∀ bs, poll feed r (w ++ bs) = (.done a, bs)

variable {feed : ρ → β → Progress ρ α}

theorem poll_cons_more {r r' : ρ} {b : β} (h : feed r b = .more r') (bs : List β) :
    poll feed r (b :: bs) = poll feed r' bs := by
  rw [poll, h]

theorem poll_cons_done {r : ρ} {b : β} {a : α} (h : feed r b = .done a) (bs : List β) :
    poll feed r (b :: bs) = (.done a, bs) := by
  rw [poll, h]

theorem Goes.refl (r : ρ) : Goes feed r [] r := fun _ => rfl

theorem Goes.single {r r' : ρ} {b : β} (h : feed r b = .more r') : Goes feed r [b] r' :=
  fun bs => poll_cons_more h bs

theorem Goes.trans {r s t : ρ} {v w : List β} (hv : Goes feed r v s) (hw : Goes feed s w t) :
    Goes feed r (v ++ w) t := by
  intro bs
  rw [List.append_assoc, hv, hw]

theorem Goes.reads {r s : ρ} {v w : List β} {a : α} (hv : Goes feed r v s) (hw : Reads feed s w a) :
    Reads feed r (v ++ w) a := by
  intro bs
  rw [List.append_assoc, hv, hw]

theorem Reads.single {r : ρ} {b : β} {a : α} (h : feed r b = .done a) : Reads feed r [b] a :=
  fun bs => poll_cons_done h bs

variable (feed) in
/-- A reader that does not finish has taken all symbols. -/
theorem poll_cases (r : ρ) (w : List β) :
    (∃ r', Goes feed r w r' ∧ poll feed r w = (.more r', [])) ∨
    ∃ a v bs, w = v ++ bs ∧ Reads feed r v a ∧ poll feed r w = (.done a, bs) := by
  induction w generalizing r with
  | nil => exact .inl ⟨r, Goes.refl r, rfl⟩
  | cons b w ih =>
      cases hb : feed r b with
      | done a =>
          exact .inr ⟨a, [b], w, rfl, Reads.single hb, poll_cons_done hb w⟩
      | more s =>
          rw [poll_cons_more hb]
          rcases ih s with ⟨r', hgoes, hpoll⟩ | ⟨a, v, bs, rfl, hreads, hpoll⟩
          · exact .inl ⟨r', (Goes.single hb).trans hgoes, hpoll⟩
          · exact .inr ⟨a, b :: v, bs, rfl, (Goes.single hb).reads hreads, hpoll⟩

/-- **A reader that has read a part of a word, when more arrives.** -/
theorem Reads.cases {r s : ρ} {part w x y : List β} {a : α} (hx : Reads feed r x a)
    (hpart : Goes feed r part s) (hpre : part ++ w <+: x ++ y) :
    (∃ bs, part ++ w = x ++ bs ∧ poll feed s w = (.done a, bs)) ∨
    ∃ s', Goes feed r (part ++ w) s' ∧ poll feed s w = (.more s', []) := by
  obtain ⟨z, hz⟩ := hpre
  rcases poll_cases feed s w with ⟨s', hgoes, hpoll⟩ | ⟨a', v, bs, rfl, hreads, hpoll⟩
  · exact .inr ⟨s', hpart.trans hgoes, hpoll⟩
  · left
    -- The word is finished at the same place, whichever way its symbols are given.
    have hall : poll feed r (x ++ y) = (.done a', bs ++ z) := by
      rw [← hz, ← List.append_assoc part, List.append_assoc (part ++ v)]
      exact hpart.reads hreads (bs ++ z)
    rw [hx y] at hall
    obtain ⟨⟨rfl⟩, rfl⟩ := Prod.mk.inj hall
    refine ⟨bs, ?_, hpoll⟩
    rw [← List.append_assoc x] at hz
    exact List.append_cancel_right hz

end PolledReader

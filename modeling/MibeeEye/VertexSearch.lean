/-
**Flooding a graph.**

The connected parts of a graph are found by starting from each vertex in turn: the search marks what it
meets, takes it up in the order in which it was met, and goes on until nothing that is marked is left to
take up.  A vertex that is marked already starts no search.

Main definitions:

* `Flood.Reaches` — there is a way along the edges;
* `Flood.discover`, `Flood.search` — a search, with fuel for each vertex it takes up;
* `Flood.components` — the searches from some vertices.

Main results:

* `Flood.mem_search_iff` — **a search takes up exactly what its start reaches**, if there is fuel for
  every vertex;
* `Flood.forall₂_components` — **one search for each connected part**, started from its least vertex.
-/

import Mathlib.Data.Finset.Card
import Mathlib.Data.Finset.SDiff
import Mathlib.Logic.Relation

set_option relaxedAutoImplicit false
set_option autoImplicit false

namespace Flood

variable {α : Type} (edges : α → List α)

/-- There is a way along the edges. -/
def Reaches : α → α → Prop := Relation.ReflTransGen fun a b => b ∈ edges a

/-- The edges from vertices of `V` stay in `V`, and each can be gone back. -/
def SymmetricOn (V : Set α) : Prop := ∀ a ∈ V, ∀ b ∈ edges a, b ∈ V ∧ a ∈ edges b

/-- No edge leads out of the set. -/
def Closed (seen : Finset α) : Prop := ∀ a ∈ seen, ∀ b ∈ edges a, b ∈ seen

section Reach

variable {edges} {V : Set α} {seen : Finset α} {a b : α}

theorem Closed.of_reaches (hseen : Closed edges seen) (ha : a ∈ seen) (h : Reaches edges a b) :
    b ∈ seen := by
  induction h with
  | refl => exact ha
  | tail _ hstep ih => exact hseen _ ih _ hstep

theorem SymmetricOn.reaches (hsym : SymmetricOn edges V) (ha : a ∈ V) (h : Reaches edges a b) :
    b ∈ V ∧ Reaches edges b a := by
  induction h with
  | refl => exact ⟨ha, Relation.ReflTransGen.refl⟩
  | tail _ hstep ih =>
      obtain ⟨hb, hback⟩ := hsym _ ih.1 _ hstep
      exact ⟨hb, ih.2.head hback⟩

end Reach

variable [DecidableEq α]

/-- The vertices that are new, each marked as it is met, and what is marked then. -/
@[grind =] def discover : List α → Finset α → List α × Finset α
  | [], seen => ([], seen)
  | a :: as, seen =>
      if a ∈ seen then discover as seen
      else (a :: (discover as (insert a seen)).1, (discover as (insert a seen)).2)

/-- The vertices in the order they are taken up, and what is marked in the end. -/
@[grind =] def search : ℕ → List α → Finset α → List α × Finset α
  | 0, _, seen => ([], seen)
  | _ + 1, [], seen => ([], seen)
  | n + 1, a :: queue, seen =>
      (a :: (search n (queue ++ (discover (edges a) seen).1) (discover (edges a) seen).2).1,
        (search n (queue ++ (discover (edges a) seen).1) (discover (edges a) seen).2).2)

/-- The searches from those of some vertices that are not marked when their turn comes. -/
@[grind =] def components (n : ℕ) : List α → Finset α → List (List α)
  | [], _ => []
  | a :: as, seen =>
      if a ∈ seen then components n as seen
      else (search edges n [a] (insert a seen)).1 ::
        components n as (search edges n [a] (insert a seen)).2

/-! ### What a step meets -/

section Discover

variable {as : List α} {seen : Finset α} {a b : α}

@[simp] theorem discover_snd (as : List α) (seen : Finset α) :
    (discover as seen).2 = seen ∪ as.toFinset := by
  induction as generalizing seen with
  | nil => simp [discover]
  | cons a as ih =>
      rw [discover]
      split
      · rename_i hseen
        rw [ih]
        ext b
        simp only [Finset.mem_union, List.mem_toFinset, List.mem_cons]
        constructor
        · rintro (h | h)
          · exact Or.inl h
          · exact Or.inr (Or.inr h)
        · rintro (h | rfl | h)
          · exact Or.inl h
          · exact Or.inl hseen
          · exact Or.inr h
      · rw [ih]
        ext b
        simp only [Finset.mem_union, Finset.mem_insert, List.mem_toFinset, List.mem_cons]
        tauto

@[simp] theorem mem_discover_fst : b ∈ (discover as seen).1 ↔ b ∈ as ∧ b ∉ seen := by
  induction as generalizing seen with
  | nil => simp [discover]
  | cons a as ih =>
      rw [discover]
      split
      · rename_i hseen
        rw [ih, List.mem_cons]
        constructor
        · exact fun h => ⟨Or.inr h.1, h.2⟩
        · rintro ⟨rfl | h, hb⟩
          · exact absurd hseen hb
          · exact ⟨h, hb⟩
      · rename_i hseen
        rw [List.mem_cons, ih, List.mem_cons, Finset.mem_insert]
        constructor
        · rintro (rfl | h)
          · exact ⟨Or.inl rfl, hseen⟩
          · exact ⟨Or.inr h.1, fun hb => h.2 (Or.inr hb)⟩
        · rintro ⟨rfl | h, hb⟩
          · exact Or.inl rfl
          · by_cases hab : b = a
            · exact Or.inl hab
            · exact Or.inr ⟨h, by simp [hab, hb]⟩

theorem nodup_discover (as : List α) (seen : Finset α) : (discover as seen).1.Nodup := by
  induction as generalizing seen with
  | nil => simp [discover]
  | cons a as ih =>
      rw [discover]
      split
      · exact ih seen
      · refine List.nodup_cons.2 ⟨?_, ih _⟩
        simp

/-- What is met for the first time is marked for the first time. -/
theorem card_discover {U : Finset α} (hU : ∀ b ∈ as, b ∈ U) :
    (discover as seen).1.length + (U \ (discover as seen).2).card = (U \ seen).card := by
  have hnew : (discover as seen).1.toFinset = (U \ seen).filter (· ∈ as) := by
    ext b
    simp only [List.mem_toFinset, mem_discover_fst, Finset.mem_filter, Finset.mem_sdiff]
    exact ⟨fun h => ⟨⟨hU b h.1, h.2⟩, h.1⟩, fun h => ⟨h.2, h.1.2⟩⟩
  have hold : U \ (discover as seen).2 = (U \ seen).filter fun b => ¬ b ∈ as := by
    ext b
    simp only [discover_snd, Finset.mem_sdiff, Finset.mem_union, List.mem_toFinset,
      Finset.mem_filter]
    tauto
  rw [← List.toFinset_card_of_nodup (nodup_discover as seen), hnew, hold,
    Finset.card_filter_add_card_filter_not]

end Discover

/-! ### What a search takes up -/

/-- A search that has the fuel to take up all that it will meet: its queue is marked, each vertex of it
once, and the edges stay among the vertices of `U`. -/
structure Ready (U : Finset α) (n : ℕ) (queue : List α) (seen : Finset α) : Prop where
  inside : ∀ a, ∀ b ∈ edges a, b ∈ U
  fuel : queue.length + (U \ seen).card ≤ n
  marked : ∀ a ∈ queue, a ∈ seen
  nodup : queue.Nodup

section Search

variable {edges} {V : Set α} {queue : List α} {seen U : Finset α} {n : ℕ} {a b : α}

theorem Ready.step (h : Ready edges U (n + 1) (a :: queue) seen) :
    Ready edges U n (queue ++ (discover (edges a) seen).1) (discover (edges a) seen).2 where
  inside := h.inside
  fuel := by
    have hcard : (discover (edges a) seen).1.length + (U \ (discover (edges a) seen).2).card =
        (U \ seen).card := card_discover (h.inside a)
    have hfuel := h.fuel
    simp only [List.length_append, List.length_cons] at hfuel ⊢
    omega
  marked := by
    intro b hb
    rw [discover_snd, Finset.mem_union, List.mem_toFinset]
    rcases List.mem_append.1 hb with hb | hb
    · exact Or.inl (h.marked b (List.mem_cons_of_mem a hb))
    · exact Or.inr (mem_discover_fst.1 hb).1
  nodup := by
    refine List.Nodup.append (List.nodup_cons.1 h.nodup).2 (nodup_discover _ _) ?_
    intro b hb hnew
    exact (mem_discover_fst.1 hnew).2 (h.marked b (List.mem_cons_of_mem a hb))

/-- What is taken up was in the queue, or was not marked yet. -/
theorem mem_search_fst (h : Ready edges U n queue seen) (hb : b ∈ (search edges n queue seen).1) :
    b ∈ queue ∨ b ∉ seen := by
  induction n generalizing queue seen with
  | zero => simp [search] at hb
  | succ n ih =>
      cases queue with
      | nil => simp [search] at hb
      | cons a queue =>
          rw [search, List.mem_cons] at hb
          rcases hb with rfl | hb
          · exact Or.inl List.mem_cons_self
          · rcases ih h.step hb with hq | hnew
            · rcases List.mem_append.1 hq with hq | hq
              · exact Or.inl (List.mem_cons_of_mem a hq)
              · exact Or.inr (mem_discover_fst.1 hq).2
            · refine Or.inr fun hseen => hnew ?_
              simp [hseen]

/-- The queue is taken up. -/
theorem search_of_mem (h : Ready edges U n queue seen) (hb : b ∈ queue) :
    b ∈ (search edges n queue seen).1 := by
  induction n generalizing queue seen with
  | zero =>
      have hfuel := h.fuel
      have hpos := List.length_pos_of_mem hb
      omega
  | succ n ih =>
      cases queue with
      | nil => simp at hb
      | cons a queue =>
          rw [search, List.mem_cons]
          rcases List.mem_cons.1 hb with rfl | hb
          · exact Or.inl rfl
          · exact Or.inr (ih h.step (List.mem_append_left _ hb))

/-- What is marked in the end was marked before, or is taken up. -/
theorem mem_search_snd (h : Ready edges U n queue seen) :
    b ∈ (search edges n queue seen).2 ↔ b ∈ seen ∨ b ∈ (search edges n queue seen).1 := by
  induction n generalizing queue seen with
  | zero => simp [search]
  | succ n ih =>
      cases queue with
      | nil => simp [search]
      | cons a queue =>
          have hmark : b ∈ (discover (edges a) seen).2 ↔ b ∈ seen ∨ b ∈ edges a := by simp
          rw [search, List.mem_cons, ih h.step, hmark]
          constructor
          · rintro ((hseen | hnext) | hout)
            · exact Or.inl hseen
            · by_cases hseen : b ∈ seen
              · exact Or.inl hseen
              · have hnew : b ∈ (discover (edges a) seen).1 := mem_discover_fst.2 ⟨hnext, hseen⟩
                exact Or.inr (Or.inr (search_of_mem h.step (List.mem_append_right _ hnew)))
            · exact Or.inr (Or.inr hout)
          · rintro (hseen | rfl | hout)
            · exact Or.inl (Or.inl hseen)
            · exact Or.inl (Or.inl (h.marked b List.mem_cons_self))
            · exact Or.inr hout

/-- No vertex is taken up twice. -/
theorem nodup_search (h : Ready edges U n queue seen) : (search edges n queue seen).1.Nodup := by
  induction n generalizing queue seen with
  | zero => simp [search]
  | succ n ih =>
      cases queue with
      | nil => simp [search]
      | cons a queue =>
          have ha := h.marked a List.mem_cons_self
          rw [search, List.nodup_cons]
          refine ⟨fun hagain => ?_, ih h.step⟩
          rcases mem_search_fst h.step hagain with hq | hnew
          · rcases List.mem_append.1 hq with hq | hq
            · exact (List.nodup_cons.1 h.nodup).1 hq
            · exact (mem_discover_fst.1 hq).2 ha
          · exact hnew (by simp [ha])

/-- What is taken up is reached from the queue. -/
theorem reaches_of_search (h : Ready edges U n queue seen)
    (hb : b ∈ (search edges n queue seen).1) : ∃ a ∈ queue, Reaches edges a b := by
  induction n generalizing queue seen with
  | zero => simp [search] at hb
  | succ n ih =>
      cases queue with
      | nil => simp [search] at hb
      | cons a queue =>
          rw [search, List.mem_cons] at hb
          rcases hb with rfl | hb
          · exact ⟨b, List.mem_cons_self, Relation.ReflTransGen.refl⟩
          · obtain ⟨c, hc, hreach⟩ := ih h.step hb
            rcases List.mem_append.1 hc with hc | hc
            · exact ⟨c, List.mem_cons_of_mem a hc, hreach⟩
            · exact ⟨a, List.mem_cons_self, hreach.head (mem_discover_fst.1 hc).1⟩

/-- The edges of what is taken up lead to what is marked. -/
theorem search_closed (h : Ready edges U n queue seen) (ha : a ∈ (search edges n queue seen).1)
    (hb : b ∈ edges a) : b ∈ (search edges n queue seen).2 := by
  induction n generalizing queue seen with
  | zero => simp [search] at ha
  | succ n ih =>
      cases queue with
      | nil => simp [search] at ha
      | cons c queue =>
          rw [search, List.mem_cons] at ha
          rcases ha with rfl | ha
          · refine (mem_search_snd h.step).2 (Or.inl ?_)
            simp [hb]
          · exact ih h.step ha

/-! ### The search from one vertex -/

/-- The search from a vertex that is not marked. -/
theorem Ready.single (hU : ∀ a, ∀ b ∈ edges a, b ∈ U) (hn : U.card < n) (a : α) :
    Ready edges U n [a] (insert a seen) where
  inside := hU
  fuel := by
    have hcard := Finset.card_le_card (Finset.sdiff_subset (s := U) (t := insert a seen))
    simp only [List.length_cons, List.length_nil]
    omega
  marked := by simp
  nodup := List.nodup_singleton a

section Single

variable (hU : ∀ a, ∀ b ∈ edges a, b ∈ U) (hn : U.card < n)
include hU hn

/-- **A search takes up exactly what its start reaches.** -/
theorem mem_search_iff (hsym : SymmetricOn edges V) (hV : a ∈ V) (hseen : Closed edges seen)
    (ha : a ∉ seen) :
    b ∈ (search edges n [a] (insert a seen)).1 ↔ Reaches edges a b := by
  have hready : Ready edges U n [a] (insert a seen) := Ready.single hU hn a
  constructor
  · intro hb
    obtain ⟨c, hc, hreach⟩ := reaches_of_search hready hb
    rwa [List.mem_singleton.1 hc] at hreach
  · intro hreach
    induction hreach with
    | refl => exact search_of_mem hready (List.mem_singleton_self a)
    | tail hac hstep ih =>
        rename_i b c
        rcases (mem_search_snd hready).1 (search_closed hready ih hstep) with hc | hc
        · rcases Finset.mem_insert.1 hc with rfl | hc
          · exact search_of_mem hready (List.mem_singleton_self c)
          · exact absurd (hseen.of_reaches hc (hsym.reaches hV (hac.tail hstep)).2) ha
        · exact hc

/-- What is marked after a search has no edge out of it. -/
theorem closed_search (hseen : Closed edges seen) (ha : a ∉ seen) :
    Closed edges (search edges n [a] (insert a seen)).2 := by
  have hready : Ready edges U n [a] (insert a seen) := Ready.single hU hn a
  intro b hb c hc
  rcases (mem_search_snd hready).1 hb with hb | hb
  · rcases Finset.mem_insert.1 hb with rfl | hb
    · exact search_closed hready (search_of_mem hready (List.mem_singleton_self b)) hc
    · refine (mem_search_snd hready).2 (Or.inl ?_)
      exact Finset.mem_insert_of_mem (hseen b hb c hc)
  · exact search_closed hready hb hc

/-- What is marked after a search was marked before, or is reached. -/
theorem mem_search_snd_iff (hsym : SymmetricOn edges V) (hV : a ∈ V) (hseen : Closed edges seen)
    (ha : a ∉ seen) :
    b ∈ (search edges n [a] (insert a seen)).2 ↔ b ∈ seen ∨ Reaches edges a b := by
  rw [mem_search_snd (Ready.single hU hn a), mem_search_iff hU hn hsym hV hseen ha, Finset.mem_insert]
  constructor
  · rintro ((rfl | h) | h)
    · exact Or.inr Relation.ReflTransGen.refl
    · exact Or.inl h
    · exact Or.inr h
  · rintro (h | h)
    · exact Or.inl (Or.inr h)
    · exact Or.inr h

end Single

end Search

/-! ### All searches -/

/-- The vertices of `c` are those that `a` reaches, each once. -/
structure IsPart (a : α) (c : List α) : Prop where
  nodup : c.Nodup
  mem_iff : ∀ b, b ∈ c ↔ Reaches edges a b

section Components

variable {edges} [LinearOrder α] {V : Set α} {seen U : Finset α} {n : ℕ} {starts : List α}

open Classical in
/-- **One search for each connected part**, started from its least vertex among the starts. -/
theorem forall₂_components (hsym : SymmetricOn edges V) (hU : ∀ a, ∀ b ∈ edges a, b ∈ U)
    (hn : U.card < n) (hV : ∀ a ∈ starts, a ∈ V) (hstarts : starts.Pairwise (· < ·))
    (hseen : Closed edges seen) :
    List.Forall₂ (IsPart edges)
      (starts.filter fun a => a ∉ seen ∧ ∀ b ∈ starts, b < a → ¬ Reaches edges b a)
      (components edges n starts seen) := by
  induction starts generalizing seen with
  | nil => simp [components]
  | cons a starts ih =>
      obtain ⟨haV, hV⟩ := List.forall_mem_cons.1 hV
      obtain ⟨hless, hstarts⟩ := List.pairwise_cons.1 hstarts
      rw [components]
      split
      · rename_i ha
        have hsame : (a :: starts).filter (fun c => c ∉ seen ∧
              ∀ b ∈ a :: starts, b < c → ¬ Reaches edges b c) =
            starts.filter fun c => c ∉ seen ∧ ∀ b ∈ starts, b < c → ¬ Reaches edges b c := by
          rw [List.filter_cons_of_neg (by simp [ha])]
          refine List.filter_congr fun c hc => ?_
          have hout : c ∉ seen → ¬ Reaches edges a c := fun hc h => hc (hseen.of_reaches ha h)
          simp only [List.forall_mem_cons, decide_eq_decide]
          exact ⟨fun h => ⟨h.1, h.2.2⟩, fun h => ⟨h.1, fun _ => hout h.1, h.2⟩⟩
        rw [hsame]
        exact ih hV hstarts hseen
      · rename_i ha
        have hready : Ready edges U n [a] (insert a seen) := Ready.single hU hn a
        have hleast : ∀ b ∈ starts, b < a → ¬ Reaches edges b a :=
          fun b hb hlt => absurd (hless b hb) (not_lt_of_gt hlt)
        have hsame : starts.filter (fun c => c ∉ seen ∧
              ∀ b ∈ a :: starts, b < c → ¬ Reaches edges b c) =
            starts.filter fun c => c ∉ (search edges n [a] (insert a seen)).2 ∧
              ∀ b ∈ starts, b < c → ¬ Reaches edges b c := by
          refine List.filter_congr fun c hc => ?_
          have hac := hless c hc
          simp only [List.forall_mem_cons, decide_eq_decide,
            mem_search_snd_iff hU hn hsym haV hseen ha, not_or]
          exact ⟨fun h => ⟨⟨h.1, h.2.1 hac⟩, h.2.2⟩, fun h => ⟨h.1.1, fun _ => h.1.2, h.2⟩⟩
        rw [List.filter_cons_of_pos (by simpa [ha] using hleast), hsame]
        exact List.Forall₂.cons
          ⟨nodup_search hready, fun b => mem_search_iff hU hn hsym haV hseen ha⟩
          (ih hV hstarts (closed_search hU hn hseen ha))

end Components

end Flood

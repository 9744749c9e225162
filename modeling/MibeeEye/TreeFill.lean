/-
**Filling in what a tree lacks.**

Of two trees of keyed entries one has the defaults, and the other is filled in: an entry that it lacks
is taken from the defaults, and where both have a node the filling goes on below.  A leaf stays as it
is, whatever the defaults have in its place.

Main definitions:

* `KeyTree.fill` — the tree filled in;
* `KeyTree.Blocked` — a leaf stands on the way to a path;
* `KeyTree.Missing` — a path that the defaults have, and that is the first missing on its way.

Main results:

* `KeyTree.find_fill_of_find`, `KeyTree.find_fill_of_not_find` — **what stands at a path of the tree
  filled in**;
* `KeyTree.fill_fill` — **to fill in again changes nothing**;
* `KeyTree.not_missing_fill` — and nothing is missing then;
* `KeyTree.missing_cons_iff`, `KeyTree.missing_entries_iff` — what is missing, from the root downwards
  and entry by entry.
-/

import MibeeEye.KeyTree

set_option relaxedAutoImplicit false
set_option autoImplicit false

namespace KeyTree

variable {κ α : Type} [LinearOrder κ]

mutual

/-- A tree, filled in. -/
@[grind =] def fill : Doc κ α → Doc κ α → Doc κ α
  | .leaf _, t => t
  | .node _, .leaf a => .leaf a
  | .node ds, .node es => .node (fillEntries ds es)

/-- Entries, filled in one after the other. -/
@[grind =] def fillEntries : List (κ × Doc κ α) → List (κ × Doc κ α) → List (κ × Doc κ α)
  | [], es => es
  | d :: ds, es =>
      fillEntries ds (insert d.1 (match es.lookup d.1 with
        | some t => fill d.2 t
        | none => d.2) es)

end

/-- A leaf stands on the way to a path. -/
def Blocked (t : Doc κ α) (p : List κ) : Prop := ∃ q a, q <+: p ∧ q ≠ p ∧ t.find q = some (.leaf a)

/-- A path that is missing, below nodes that are not. -/
def Missing (d t : Doc κ α) (p : List κ) : Prop :=
  (d.find p).isSome ∧ t.find p = none ∧ ∀ q, q <+: p → q ≠ p → ∃ es, t.find q = some (.node es)

variable {d t u : Doc κ α} {ds es : List (κ × Doc κ α)} {k : κ} {p q : List κ} {a : α}

@[simp] theorem fill_leaf (d : Doc κ α) (a : α) : fill d (.leaf a) = .leaf a := by
  cases d with
  | leaf b => rw [fill]
  | node ds => rw [fill]

/-! ### The entries of a node -/

/-- **An entry of a node filled in.** -/
theorem lookup_fillEntries (hds : Ascending ds) (es : List (κ × Doc κ α)) (k : κ) :
    (fillEntries ds es).lookup k =
      match ds.lookup k, es.lookup k with
      | none, t => t
      | some d, none => some d
      | some d, some t => some (fill d t) := by
  induction ds generalizing es with
  | nil => rw [fillEntries]; rfl
  | cons e ds ih =>
      rw [fillEntries, ih (List.pairwise_cons.1 hds).2, lookup_insert]
      by_cases hk : k = e.1
      · have hself : (e :: ds).lookup e.1 = some e.2 := List.lookup_cons_self
        rw [hk, if_pos rfl, hds.lookup_tail, hself]
        cases es.lookup e.1 <;> rfl
      · rw [if_neg hk, lookup_cons_of_ne hk]

/-- Entries that are filled in in order are so one after the other. -/
theorem ordered_fillEntries
    (hds : ∀ e ∈ ds, e.2.Ordered ∧ ∀ {t : Doc κ α}, t.Ordered → (fill e.2 t).Ordered)
    (hes : (Doc.node es).Ordered) : (Doc.node (fillEntries ds es)).Ordered := by
  induction ds generalizing es with
  | nil => rwa [fillEntries]
  | cons e ds ih =>
      obtain ⟨hordered, hfill⟩ := hds e List.mem_cons_self
      rw [fillEntries]
      refine ih (fun f hf => hds f (List.mem_cons_of_mem e hf)) (hes.insert ?_ e.1)
      cases hk : es.lookup e.1 with
      | none => exact hordered
      | some t => exact hfill (hes.lookup hk)

/-- A tree in order is filled in with one in order. -/
theorem Doc.Ordered.fill (hd : d.Ordered) (ht : t.Ordered) : (fill d t).Ordered := by
  induction hd generalizing t with
  | leaf a => rwa [KeyTree.fill]
  | node _ hs ih =>
      cases t with
      | leaf a => rwa [KeyTree.fill]
      | node es =>
          rw [KeyTree.fill]
          exact ordered_fillEntries (fun e he => ⟨hs e he, ih e he⟩) ht

/-! ### The subtrees -/

/-- **What was there is filled in.** -/
theorem find_fill_of_find (hd : d.Ordered) (h : t.find p = some u) :
    (fill d t).find p = some (match d.find p with
      | some e => fill e u
      | none => u) := by
  induction p generalizing d t with
  | nil =>
      rw [Doc.find_nil] at h ⊢
      cases h
      rw [Doc.find_nil]
  | cons k p ih =>
      cases t with
      | leaf a => cases h
      | node es =>
          cases d with
          | leaf a =>
              rw [fill, h]
              rfl
          | node ds =>
              rw [Doc.find_node] at h
              obtain ⟨v, hv, h⟩ := Option.bind_eq_some_iff.1 h
              rw [fill, Doc.find_node, Doc.find_node, lookup_fillEntries hd.ascending, hv]
              cases hk : ds.lookup k with
              | none => exact h
              | some e => exact ih (hd.lookup hk) h

/-- **What was not there is as in the defaults**, unless a leaf stands on the way. -/
theorem find_fill_of_not_find (hd : d.Ordered) (h : t.find p = none) (hp : ¬ Blocked t p) :
    (fill d t).find p = d.find p := by
  induction p generalizing d t with
  | nil =>
      rw [Doc.find_nil] at h
      cases h
  | cons k p ih =>
      cases t with
      | leaf a => exact absurd ⟨[], a, List.nil_prefix, (List.cons_ne_nil k p).symm, rfl⟩ hp
      | node es =>
          cases d with
          | leaf a =>
              rw [fill, h]
              rfl
          | node ds =>
              rw [Doc.find_node] at h
              rw [fill, Doc.find_node, Doc.find_node, lookup_fillEntries hd.ascending]
              cases hv : es.lookup k with
              | none => cases ds.lookup k <;> rfl
              | some v =>
                  rw [hv, Option.bind_some] at h
                  cases hk : ds.lookup k with
                  | none => exact h
                  | some e =>
                      refine ih (hd.lookup hk) h fun ⟨q, a, hq, hne, hleaf⟩ => hp ⟨k :: q, a, ?_, ?_, ?_⟩
                      · exact List.cons_prefix_cons.2 ⟨rfl, hq⟩
                      · exact fun heq => hne (List.cons.inj heq).2
                      · rw [Doc.find_node, hv]
                        exact hleaf

/-- A leaf stays as it is. -/
theorem find_fill_leaf (hd : d.Ordered) (h : t.find p = some (.leaf a)) :
    (fill d t).find p = some (.leaf a) := by
  rw [find_fill_of_find hd h]
  cases d.find p with
  | none => rfl
  | some e => exact congrArg some (fill_leaf e a)

/-- What stands on the way to a path goes on to. -/
theorem Blocked.fill (h : Blocked t p) (hd : d.Ordered) : Blocked (fill d t) p := by
  obtain ⟨q, a, hq, hne, hleaf⟩ := h
  exact ⟨q, a, hq, hne, find_fill_leaf hd hleaf⟩

/-- A node stays one. -/
theorem find_fill_node (hd : d.Ordered) (h : t.find p = some (.node es)) :
    ∃ fs, (fill d t).find p = some (.node fs) := by
  rw [find_fill_of_find hd h]
  cases d.find p with
  | none => exact ⟨es, rfl⟩
  | some e =>
      cases e with
      | leaf a => exact ⟨es, show some (fill (.leaf a) (.node es)) = some (.node es) by rw [fill]⟩
      | node ds =>
          refine ⟨fillEntries ds es, ?_⟩
          show some (fill (.node ds) (.node es)) = some (.node (fillEntries ds es))
          rw [fill]

/-- Below a leaf there is nothing. -/
theorem find_of_blocked (h : Blocked t p) : t.find p = none := by
  obtain ⟨q, a, ⟨r, rfl⟩, hne, hleaf⟩ := h
  rw [Doc.find_append, hleaf, Option.bind_some]
  cases r with
  | nil => simp at hne
  | cons k r => rfl

/-! ### To fill in again -/

/-- A tree has all that it has. -/
theorem fill_self (ht : t.Ordered) : fill t t = t := by
  induction ht with
  | leaf a => rw [fill]
  | @node es hes hs ih =>
      have hordered : (Doc.node es).Ordered := .node hes hs
      rw [fill]
      refine congrArg _ (ext_lookup ?_ hes fun k => ?_)
      · have hfilled := hordered.fill hordered
        rw [fill] at hfilled
        exact hfilled.ascending
      · rw [lookup_fillEntries hes]
        cases hk : es.lookup k with
        | none => rfl
        | some v => exact congrArg some (ih _ (mem_of_lookup hk))

/-- **To fill in again changes nothing.** -/
theorem fill_fill (hd : d.Ordered) (ht : t.Ordered) : fill d (fill d t) = fill d t := by
  induction hd generalizing t with
  | leaf a => rw [fill]
  | @node ds hds hs ih =>
      have hordered : (Doc.node ds).Ordered := .node hds hs
      cases t with
      | leaf a => rw [fill_leaf, fill_leaf]
      | node es =>
          have hfirst := hordered.fill ht
          have hsecond := hordered.fill hfirst
          rw [fill, fill] at hsecond
          rw [fill] at hfirst
          rw [fill, fill]
          refine congrArg _ (ext_lookup hsecond.ascending hfirst.ascending fun k => ?_)
          rw [lookup_fillEntries hds, lookup_fillEntries hds]
          cases hk : ds.lookup k with
          | none => rfl
          | some v =>
              cases hv : es.lookup k with
              | none => exact congrArg some (fill_self (hordered.lookup hk))
              | some w => exact congrArg some (ih _ (mem_of_lookup hk) (ht.lookup hv))

/-! ### What is missing -/

/-- Nothing is missing from a tree that was filled in. -/
theorem not_missing_fill (hd : d.Ordered) (p : List κ) : ¬ Missing d (fill d t) p := by
  rintro ⟨hfind, hnone, hnodes⟩
  by_cases hblocked : Blocked t p
  · obtain ⟨q, a, hq, hne, hleaf⟩ := hblocked
    obtain ⟨es, hes⟩ := hnodes q hq hne
    rw [find_fill_leaf hd hleaf] at hes
    cases hes
  · cases hp : t.find p with
    | none =>
        rw [← find_fill_of_not_find hd hp hblocked, hnone] at hfind
        cases hfind
    | some u =>
        rw [find_fill_of_find hd hp] at hnone
        cases hnone

theorem not_missing_nil : ¬ Missing d t [] := fun h => by
  have hnone := h.2.1
  rw [Doc.find_nil] at hnone
  cases hnone

theorem not_missing_of_leaf : ¬ Missing d (.leaf a) p := by
  rintro ⟨-, hnone, hnodes⟩
  cases p with
  | nil => cases hnone
  | cons k p =>
      obtain ⟨es, hes⟩ := hnodes [] List.nil_prefix (List.cons_ne_nil k p).symm
      cases hes

/-- **What is missing below a node.** -/
theorem missing_cons_iff : Missing (.node ds) (.node es) (k :: p) ↔
    ∃ d, ds.lookup k = some d ∧
      ((es.lookup k = none ∧ p = []) ∨ ∃ t, es.lookup k = some t ∧ Missing d t p) := by
  constructor
  · rintro ⟨hfind, hnone, hnodes⟩
    rw [Doc.find_node] at hfind hnone
    obtain ⟨u, hu⟩ := Option.isSome_iff_exists.1 hfind
    obtain ⟨d, hd, hu⟩ := Option.bind_eq_some_iff.1 hu
    refine ⟨d, hd, ?_⟩
    cases hk : es.lookup k with
    | none =>
        refine .inl ⟨rfl, ?_⟩
        by_contra hp
        obtain ⟨fs, hfs⟩ := hnodes [k] (List.cons_prefix_cons.2 ⟨rfl, List.nil_prefix⟩)
          fun h => hp (List.cons.inj h).2.symm
        rw [Doc.find_node, hk] at hfs
        cases hfs
    | some t =>
        rw [hk, Option.bind_some] at hnone
        refine .inr ⟨t, rfl, by rw [hu]; rfl, hnone, fun q hq hne => ?_⟩
        obtain ⟨fs, hfs⟩ := hnodes (k :: q) (List.cons_prefix_cons.2 ⟨rfl, hq⟩)
          fun h => hne (List.cons.inj h).2
        rw [Doc.find_node, hk] at hfs
        exact ⟨fs, hfs⟩
  · rintro ⟨d, hd, h⟩
    have hroot : ∃ fs, (Doc.node es).find [] = some (.node fs) := ⟨es, rfl⟩
    rcases h with ⟨hk, rfl⟩ | ⟨t, hk, hfind, hnone, hnodes⟩
    · refine ⟨?_, ?_, fun q hq hne => ?_⟩
      · rw [Doc.find_node, hd, Option.bind_some, Doc.find_nil]
        rfl
      · rw [Doc.find_node, hk]
        rfl
      · rcases List.prefix_cons_iff.1 hq with rfl | ⟨r, rfl, hr⟩
        · exact hroot
        · rw [List.prefix_nil.1 hr] at hne
          exact absurd rfl hne
    · refine ⟨?_, ?_, fun q hq hne => ?_⟩
      · rw [Doc.find_node, hd]
        exact hfind
      · rw [Doc.find_node, hk]
        exact hnone
      · rcases List.prefix_cons_iff.1 hq with rfl | ⟨r, rfl, hr⟩
        · exact hroot
        · obtain ⟨fs, hfs⟩ := hnodes r hr fun h => hne (h ▸ rfl)
          exact ⟨fs, by rw [Doc.find_node, hk]; exact hfs⟩

/-- What is missing of the first entry, and of the others. -/
theorem missing_entries_iff {e : κ × Doc κ α} {fs : List (κ × Doc κ α)} (hds : Ascending (e :: ds))
    (hfs : ∀ j, j ≠ e.1 → fs.lookup j = es.lookup j) : Missing (.node (e :: ds)) (.node es) p ↔
      (∃ q, p = e.1 :: q ∧ ((es.lookup e.1 = none ∧ q = []) ∨
        ∃ t, es.lookup e.1 = some t ∧ Missing e.2 t q)) ∨ Missing (.node ds) (.node fs) p := by
  cases p with
  | nil => simp [not_missing_nil]
  | cons k p =>
      have hself : (e :: ds).lookup e.1 = some e.2 := List.lookup_cons_self
      rw [missing_cons_iff, missing_cons_iff]
      by_cases hk : k = e.1
      · subst hk
        rw [hself, hds.lookup_tail]
        constructor
        · rintro ⟨d, hd, h⟩
          cases hd
          exact .inl ⟨p, rfl, h⟩
        · rintro (⟨q, hq, h⟩ | ⟨d, hd, -⟩)
          · cases hq
            exact ⟨e.2, rfl, h⟩
          · cases hd
      · rw [lookup_cons_of_ne hk, hfs k hk]
        constructor
        · exact .inr
        · rintro (⟨q, hq, -⟩ | h)
          · exact absurd (List.cons.inj hq).1 hk
          · exact h

end KeyTree

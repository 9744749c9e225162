/-
**Trees that are written leaf by leaf.**

A tree is built up from rows, each of a path and what stands at its end.  Where a row goes through a leaf the
leaf gives way to a node, and where it ends at a node all that is below gives way to the leaf; so of two rows
whose paths clash only the later one is left.

Main definitions:

* `KeyTree.put`, `KeyTree.putAll` — rows are written into a tree;
* `KeyTree.Doc.leaves` — the leaves of a tree, with their paths;
* `KeyTree.Clash` — one of two paths goes on from the other;
* `KeyTree.standing` — the rows that no later one clashes with.

Main results:

* `KeyTree.mem_leaves` — the leaves are what is found;
* `KeyTree.find_put` — **what one row changes**;
* `KeyTree.leaves_putAll` — **the leaves of a tree that was written are the rows that are left standing**.
-/

import MibeeEye.KeyTree

set_option relaxedAutoImplicit false
set_option autoImplicit false

namespace KeyTree

variable {κ α : Type}

/-! ### Paths that clash -/

/-- One of two paths goes on from the other. -/
def Clash (p q : List κ) : Prop := p <+: q ∨ q <+: p

instance [DecidableEq κ] (p q : List κ) : Decidable (Clash p q) := inferInstanceAs (Decidable (_ ∨ _))

/-- The rows that no later one clashes with. -/
@[grind =] def standing [DecidableEq κ] : List (List κ × α) → List (List κ × α)
  | [] => []
  | r :: rows => if ∃ s ∈ rows, Clash r.1 s.1 then standing rows else r :: standing rows

section Clash

variable {k j : κ} {p q : List κ}

theorem clash_rfl : Clash p p := .inl List.prefix_rfl

theorem Clash.symm (h : Clash p q) : Clash q p := Or.symm h

theorem clash_cons : Clash (k :: p) (k :: q) ↔ Clash p q := by
  rw [Clash, Clash, List.prefix_cons_inj, List.prefix_cons_inj]

theorem not_clash_cons (h : j ≠ k) : ¬ Clash (j :: p) (k :: q) := by
  rintro (h' | h')
  · exact h (List.cons_prefix_cons.1 h').1
  · exact h (List.cons_prefix_cons.1 h').1.symm

end Clash

variable [LinearOrder κ]

/-! ### Writing -/

/-- The entries that a path through a key goes on in. -/
def below (k : κ) (es : List (κ × Doc κ α)) : List (κ × Doc κ α) :=
  match es.lookup k with
  | some (.node fs) => fs
  | _ => []

/-- A leaf is put at the end of a path. -/
def put : List κ → α → List (κ × Doc κ α) → List (κ × Doc κ α)
  | [], _, es => es
  | [k], a, es => insert k (.leaf a) es
  | k :: j :: p, a, es => insert k (.node (put (j :: p) a (below k es))) es

/-- Rows are put one after another. -/
def putAll (rows : List (List κ × α)) (es : List (κ × Doc κ α)) : List (κ × Doc κ α) :=
  rows.foldl (fun es r => put r.1 r.2 es) es

variable {es : List (κ × Doc κ α)} {rows : List (List κ × α)} {t u : Doc κ α} {k j : κ} {p q : List κ} {a b : α}

/-- What is found below a key: nothing at a leaf, but at its own place. -/
theorem find_below (es : List (κ × Doc κ α)) (hq : ¬ Clash q p) :
    (Doc.node (below k es)).find q = some (.leaf b) ↔ (Doc.node es).find (k :: q) = some (.leaf b) := by
  obtain ⟨i, q, rfl⟩ : ∃ i q', q = i :: q' := by
    cases q with
    | nil => exact absurd (.inl List.nil_prefix) hq
    | cons i q => exact ⟨i, q, rfl⟩
  rw [Doc.find_node es, below]
  rcases es.lookup k with - | (c | fs)
  · simp [Doc.find]
  · simp [Doc.find]
  · rfl

/-- **What one row changes.** -/
theorem find_put (hp : p ≠ []) (a : α) (es : List (κ × Doc κ α)) (q : List κ) (b : α) :
    (Doc.node (put p a es)).find q = some (.leaf b) ↔
      q = p ∧ b = a ∨ ¬ Clash q p ∧ (Doc.node es).find q = some (.leaf b) := by
  induction p, a, es using put.induct generalizing q with
  | case1 => exact absurd rfl hp
  | case2 k a es =>
      cases q with
      | nil => simp
      | cons j q =>
          rw [put, Doc.find_node, lookup_insert]
          by_cases hj : j = k
          · subst hj
            rw [if_pos rfl, Option.bind_some, Doc.find_leaf_iff, clash_cons]
            simp [Clash, eq_comm]
          · have hclash := not_clash_cons (p := q) (q := []) hj
            rw [if_neg hj]
            simp [hj, hclash, Doc.find_node]
  | case3 k i p a es ih =>
      cases q with
      | nil => simp [Clash]
      | cons j q =>
          rw [put, Doc.find_node, lookup_insert]
          by_cases hj : j = k
          · subst hj
            rw [if_pos rfl, Option.bind_some, ih (List.cons_ne_nil i p), clash_cons, List.cons_inj_right]
            refine or_congr_right (and_congr_right fun hq => ?_)
            exact find_below es hq
          · have hclash := not_clash_cons (p := q) (q := i :: p) hj
            rw [if_neg hj]
            simp [hj, hclash, Doc.find_node]

/-- Entries that are written to stay in order. -/
theorem ordered_below (h : (Doc.node es).Ordered) (k : κ) : (Doc.node (below k es)).Ordered := by
  rw [below]
  split
  · next fs hlookup => exact h.lookup hlookup
  · exact Doc.ordered_nil

theorem Doc.Ordered.put (h : (Doc.node es).Ordered) (p : List κ) (a : α) :
    (Doc.node (KeyTree.put p a es)).Ordered := by
  induction p, a, es using KeyTree.put.induct with
  | case1 a es => exact h
  | case2 k a es => exact h.insert (.leaf a) k
  | case3 k i p a es ih => exact h.insert (ih (ordered_below h k)) k

theorem Doc.Ordered.putAll (h : (Doc.node es).Ordered) (rows : List (List κ × α)) :
    (Doc.node (KeyTree.putAll rows es)).Ordered := by
  induction rows generalizing es with
  | nil => exact h
  | cons r rows ih => exact ih (h.put r.1 r.2)

/-! ### Leaves -/

mutual

/-- The leaves of a tree, with their paths. -/
def Doc.leaves : Doc κ α → List (List κ × α)
  | .leaf a => [([], a)]
  | .node es => entryLeaves es

/-- The leaves of the trees under some keys. -/
@[grind =] def entryLeaves : List (κ × Doc κ α) → List (List κ × α)
  | [] => []
  | (k, t) :: es => (t.leaves.map fun l => (k :: l.1, l.2)) ++ entryLeaves es

end

omit [LinearOrder κ] in
theorem mem_entryLeaves {l : List κ × α} :
    l ∈ entryLeaves es ↔ ∃ k t, (k, t) ∈ es ∧ ∃ p, (p, l.2) ∈ t.leaves ∧ l.1 = k :: p := by
  induction es with
  | nil => simp [entryLeaves]
  | cons e es ih =>
      obtain ⟨k, t⟩ := e
      obtain ⟨q, a⟩ := l
      rw [entryLeaves, List.mem_append, ih, List.mem_map]
      constructor
      · rintro (⟨⟨p, b⟩, hmem, heq⟩ | ⟨j, u, hmem, hp⟩)
        · obtain ⟨rfl, rfl⟩ := Prod.mk.inj heq
          exact ⟨k, t, List.mem_cons_self, p, hmem, rfl⟩
        · exact ⟨j, u, List.mem_cons_of_mem _ hmem, hp⟩
      · rintro ⟨j, u, hmem, p, hp, rfl⟩
        rcases List.mem_cons.1 hmem with heq | hmem
        · obtain ⟨rfl, rfl⟩ := Prod.mk.inj heq
          exact .inl ⟨(p, a), hp, rfl⟩
        · exact .inr ⟨j, u, hmem, p, hp, rfl⟩

/-- **The leaves are what is found.** -/
theorem mem_leaves (h : t.Ordered) : (p, a) ∈ t.leaves ↔ t.find p = some (.leaf a) := by
  induction p generalizing t with
  | nil =>
      cases t with
      | leaf b => simp [Doc.leaves, eq_comm]
      | node es => simp [Doc.leaves, mem_entryLeaves]
  | cons k p ih =>
      cases t with
      | leaf b => simp [Doc.leaves, Doc.find]
      | node es =>
          rw [Doc.leaves, mem_entryLeaves, Doc.find_node]
          constructor
          · rintro ⟨j, u, hmem, q, hq, heq⟩
            obtain ⟨rfl, rfl⟩ := List.cons.inj heq
            have hlookup := h.ascending.lookup_of_mem hmem
            rw [hlookup, Option.bind_some]
            exact (ih (h.lookup hlookup)).1 hq
          · intro hfind
            obtain ⟨u, hu, hfind⟩ := Option.bind_eq_some_iff.1 hfind
            exact ⟨k, u, mem_of_lookup hu, p, (ih (h.lookup hu)).2 hfind, rfl⟩

theorem nodup_entryLeaves (h : Ascending es) (hs : ∀ e ∈ es, e.2.leaves.Nodup) : (entryLeaves es).Nodup := by
  induction es with
  | nil => exact List.nodup_nil
  | cons e es ih =>
      obtain ⟨k, t⟩ := e
      obtain ⟨hhead, htail⟩ := List.pairwise_cons.1 h
      rw [entryLeaves, List.nodup_append]
      refine ⟨?_, ih htail fun e he => hs e (List.mem_cons_of_mem _ he), ?_⟩
      · refine (hs (k, t) List.mem_cons_self).map fun l l' heq => ?_
        obtain ⟨hp, ha⟩ := Prod.mk.inj heq
        exact Prod.ext (List.cons.inj hp).2 ha
      · rintro l hl l' hl' rfl
        obtain ⟨r, -, rfl⟩ := List.mem_map.1 hl
        obtain ⟨j, u, hmem, p, -, heq⟩ := mem_entryLeaves.1 hl'
        exact absurd (List.cons.inj heq).1 (ne_of_lt (hhead _ hmem))

/-- No leaf is listed twice. -/
theorem nodup_leaves (h : t.Ordered) : t.leaves.Nodup := by
  induction h with
  | leaf a => exact List.nodup_singleton _
  | node h hs ih => exact nodup_entryLeaves h ih

/-! ### What is left -/

theorem standing_sublist (rows : List (List κ × α)) : (standing rows).Sublist rows := by
  induction rows with
  | nil => exact List.Sublist.refl _
  | cons r rows ih =>
      rw [standing]
      split
      · exact ih.cons r
      · exact ih.cons_cons r

/-- A row that stands twice would clash with itself. -/
theorem nodup_standing (rows : List (List κ × α)) : (standing rows).Nodup := by
  induction rows with
  | nil => exact List.nodup_nil
  | cons r rows ih =>
      rw [standing]
      split
      · exact ih
      · next hclear =>
          refine List.nodup_cons.2 ⟨fun hmem => hclear ⟨r, ?_, clash_rfl⟩, ih⟩
          exact (standing_sublist rows).subset hmem

/-- What is found after the rows were put: a row that stands, or what no row clashed with. -/
theorem find_putAll (hrows : ∀ r ∈ rows, r.1 ≠ []) (es : List (κ × Doc κ α)) (q : List κ) (b : α) :
    (Doc.node (putAll rows es)).find q = some (.leaf b) ↔
      (q, b) ∈ standing rows ∨ (∀ r ∈ rows, ¬ Clash q r.1) ∧ (Doc.node es).find q = some (.leaf b) := by
  induction rows generalizing es with
  | nil => simp [putAll, standing]
  | cons r rows ih =>
      obtain ⟨hr, hrows⟩ := List.forall_mem_cons.1 hrows
      rw [show putAll (r :: rows) es = putAll rows (put r.1 r.2 es) from rfl, ih hrows, find_put hr,
        List.forall_mem_cons, standing]
      constructor
      · rintro (hstands | ⟨hclear, ⟨rfl, rfl⟩ | ⟨hclash, hfind⟩⟩)
        · left
          split
          · exact hstands
          · exact List.mem_cons_of_mem r hstands
        · left
          rw [if_neg fun ⟨s, hs, hclash⟩ => hclear s hs hclash]
          exact List.mem_cons_self
        · exact .inr ⟨⟨hclash, hclear⟩, hfind⟩
      · rintro (hstands | ⟨⟨hclash, hclear⟩, hfind⟩)
        · split at hstands
          · exact .inl hstands
          · next hnone =>
              rcases List.mem_cons.1 hstands with rfl | hstands
              · exact .inr ⟨fun s hs hclash => hnone ⟨s, hs, hclash⟩, .inl ⟨rfl, rfl⟩⟩
              · exact .inl hstands
        · exact .inr ⟨hclear, .inr ⟨hclash, hfind⟩⟩

/-- **The leaves of a tree that was written are the rows that are left standing.** -/
theorem leaves_putAll (hrows : ∀ r ∈ rows, r.1 ≠ []) :
    (Doc.node (putAll rows [])).leaves.Perm (standing rows) := by
  have hordered : (Doc.node (putAll rows [])).Ordered := Doc.ordered_nil.putAll rows
  refine (List.perm_ext_iff_of_nodup (nodup_leaves hordered) (nodup_standing rows)).2 ?_
  rintro ⟨q, b⟩
  have hempty : (Doc.node [] : Doc κ α).find q ≠ some (.leaf b) := by
    cases q <;> simp [Doc.find]
  rw [mem_leaves hordered, find_putAll hrows]
  exact or_iff_left fun h => hempty h.2

end KeyTree

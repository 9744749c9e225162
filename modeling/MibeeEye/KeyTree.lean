/-
**Trees of keyed entries.**

A document of sections, of sections in these and of settings is a tree: a leaf, or entries each with
a key of its own.  The entries stand in the order of their keys, so that there is one way to write
down a tree.  A path is the list of the keys on the way to a subtree.

Main definitions:

* `KeyTree.insert` — an entry is added, or takes the place of the one that has its key;
* `KeyTree.Doc`, `KeyTree.Doc.Ordered` — trees, and those in order;
* `KeyTree.Doc.find` — the subtree at a path;
* `KeyTree.Table` — entries in order.

Main results:

* `KeyTree.lookup_insert`, `KeyTree.insert_eq_self` — what an insertion changes, and when it changes
  nothing;
* `KeyTree.ext_lookup` — **entries in order are told apart by lookups**;
* `KeyTree.Doc.find_append` — the way to a subtree in two parts;
* `KeyTree.Doc.find_leaf_iff` — there is nothing below a leaf.
-/

import Mathlib.Data.List.Sort

set_option relaxedAutoImplicit false
set_option autoImplicit false

namespace KeyTree

/-! ### Entries -/

section Entries

variable {κ β : Type} [LinearOrder κ]

/-- The keys ascend. -/
def Ascending (es : List (κ × β)) : Prop := es.Pairwise fun a b => a.1 < b.1

/-- An entry is added in its place, or takes the place of the one that has its key. -/
@[grind =] def insert (k : κ) (b : β) : List (κ × β) → List (κ × β)
  | [] => [(k, b)]
  | e :: es =>
      if k < e.1 then (k, b) :: e :: es
      else if k = e.1 then (k, b) :: es
      else e :: insert k b es

variable {k j : κ} {b : β} {es fs : List (κ × β)}

theorem lookup_cons_of_ne {e : κ × β} (h : j ≠ e.1) : (e :: es).lookup j = es.lookup j := by
  obtain ⟨i, c⟩ := e
  rw [List.lookup_cons, beq_eq_false_iff_ne.2 h]

/-- **What an insertion changes.** -/
theorem lookup_insert (k : κ) (b : β) (es : List (κ × β)) (j : κ) :
    (insert k b es).lookup j = if j = k then some b else es.lookup j := by
  have hself : ∀ fs : List (κ × β), ((k, b) :: fs).lookup j = if j = k then some b else fs.lookup j := by
    intro fs
    by_cases hj : j = k
    · rw [hj, List.lookup_cons_self, if_pos rfl]
    · rw [lookup_cons_of_ne hj, if_neg hj]
  induction es with
  | nil => exact hself []
  | cons e es ih =>
      rw [insert]
      split
      · exact hself (e :: es)
      · split
        · next hk =>
            rw [hself]
            by_cases hj : j = k
            · rw [if_pos hj, if_pos hj]
            · rw [if_neg hj, if_neg hj, lookup_cons_of_ne (hk ▸ hj)]
        · next hk =>
            by_cases hj : j = e.1
            · have hne : j ≠ k := fun h => hk (h ▸ hj)
              obtain ⟨i, c⟩ := e
              rw [if_neg hne, hj, List.lookup_cons_self, List.lookup_cons_self]
            · rw [lookup_cons_of_ne hj, ih, lookup_cons_of_ne hj]

theorem mem_insert {e : κ × β} (h : e ∈ insert k b es) : e = (k, b) ∨ e ∈ es := by
  induction es with
  | nil => exact .inl (List.mem_singleton.1 h)
  | cons f es ih =>
      rw [insert] at h
      split at h
      · exact List.mem_cons.1 h
      · split at h
        · rcases List.mem_cons.1 h with h | h
          · exact .inl h
          · exact .inr (List.mem_cons_of_mem f h)
        · rcases List.mem_cons.1 h with h | h
          · exact .inr (h ▸ List.mem_cons_self)
          · exact (ih h).imp_right (List.mem_cons_of_mem f)

/-- An insertion keeps the order. -/
theorem Ascending.insert (h : Ascending es) (k : κ) (b : β) : Ascending (insert k b es) := by
  induction es with
  | nil => exact List.pairwise_singleton _ _
  | cons e es ih =>
      obtain ⟨hhead, htail⟩ := List.pairwise_cons.1 h
      rw [KeyTree.insert]
      split
      · next hlt =>
          refine List.pairwise_cons.2 ⟨fun f hf => ?_, h⟩
          rcases List.mem_cons.1 hf with rfl | hf
          · exact hlt
          · exact hlt.trans (hhead f hf)
      · split
        · next heq => exact List.pairwise_cons.2 ⟨fun f hf => heq ▸ hhead f hf, htail⟩
        · next hlt hne =>
            refine List.pairwise_cons.2 ⟨fun f hf => ?_, ih htail⟩
            rcases mem_insert hf with rfl | hf
            · exact lt_of_le_of_ne (not_lt.1 hlt) (Ne.symm hne)
            · exact hhead f hf

theorem mem_of_lookup (h : es.lookup k = some b) : (k, b) ∈ es := by
  obtain ⟨fs, gs, rfl, -⟩ := List.lookup_eq_some_iff.1 h
  exact List.mem_append_right fs List.mem_cons_self

theorem Ascending.lookup_of_mem (h : Ascending es) (hmem : (k, b) ∈ es) : es.lookup k = some b := by
  induction es with
  | nil => cases hmem
  | cons e es ih =>
      obtain ⟨hhead, htail⟩ := List.pairwise_cons.1 h
      rcases List.mem_cons.1 hmem with rfl | hmem
      · exact List.lookup_cons_self
      · rw [lookup_cons_of_ne (ne_of_gt (hhead _ hmem))]
        exact ih htail hmem

/-- The first key is not among the others. -/
theorem Ascending.lookup_tail {e : κ × β} (h : Ascending (e :: es)) : es.lookup e.1 = none := by
  refine List.lookup_eq_none_iff.2 fun f hf => ?_
  rw [bne_iff_ne]
  exact ne_of_lt ((List.pairwise_cons.1 h).1 f hf)

/-- **Entries in order are told apart by lookups.** -/
theorem ext_lookup (hes : Ascending es) (hfs : Ascending fs) (h : ∀ k, es.lookup k = fs.lookup k) :
    es = fs := by
  have hnodup : ∀ {l : List (κ × β)}, Ascending l → l.Nodup := fun hl =>
    hl.imp fun hlt heq => absurd (congrArg Prod.fst heq) (ne_of_lt hlt)
  have hmem : ∀ e, e ∈ es ↔ e ∈ fs := by
    rintro ⟨k, b⟩
    constructor
    · intro he
      exact mem_of_lookup (h k ▸ hes.lookup_of_mem he)
    · intro he
      exact mem_of_lookup ((h k).symm ▸ hfs.lookup_of_mem he)
  refine ((List.perm_ext_iff_of_nodup (hnodup hes) (hnodup hfs)).2 hmem).eq_of_pairwise
    (fun a b _ _ hab hba => absurd hab (lt_asymm hba)) hes hfs

/-- **An entry that is there may be inserted again.** -/
theorem insert_eq_self (hes : Ascending es) (h : es.lookup k = some b) : insert k b es = es := by
  refine ext_lookup (hes.insert k b) hes fun j => ?_
  rw [lookup_insert]
  split
  · next hj => rw [hj, h]
  · rfl

end Entries

/-! ### Trees -/

/-- A leaf, or entries with keys. -/
inductive Doc (κ α : Type) where
  | leaf (a : α)
  | node (entries : List (κ × Doc κ α))

variable {κ α : Type} [LinearOrder κ]

/-- The entries of every node are in order. -/
inductive Doc.Ordered : Doc κ α → Prop
  | leaf (a : α) : Ordered (.leaf a)
  | node {es : List (κ × Doc κ α)} (h : Ascending es) (hs : ∀ e ∈ es, Ordered e.2) : Ordered (.node es)

/-- The subtree at a path. -/
@[grind =] def Doc.find : Doc κ α → List κ → Option (Doc κ α)
  | t, [] => some t
  | .leaf _, _ :: _ => none
  | .node es, k :: p => (es.lookup k).bind fun t => t.find p

variable {t : Doc κ α} {es : List (κ × Doc κ α)} {k : κ} {p q : List κ} {a : α}

@[simp] theorem Doc.find_nil (t : Doc κ α) : t.find [] = some t := by
  cases t <;> rfl

theorem Doc.find_node (es : List (κ × Doc κ α)) (k : κ) (p : List κ) :
    (Doc.node es).find (k :: p) = (es.lookup k).bind fun t => t.find p := rfl

theorem Doc.find_leaf_iff : (Doc.leaf a : Doc κ α).find p = some t ↔ p = [] ∧ .leaf a = t := by
  cases p with
  | nil => simp
  | cons k p => simp [Doc.find]

/-- **The way to a subtree in two parts.** -/
theorem Doc.find_append (t : Doc κ α) (p q : List κ) :
    t.find (p ++ q) = (t.find p).bind fun u => u.find q := by
  induction p generalizing t with
  | nil => simp
  | cons k p ih =>
      cases t with
      | leaf a => rfl
      | node es =>
          rw [List.cons_append, Doc.find_node, Doc.find_node]
          cases es.lookup k with
          | none => rfl
          | some u => exact ih u

theorem Doc.Ordered.ascending (h : (Doc.node es).Ordered) : Ascending es := by
  cases h with
  | node h hs => exact h

theorem Doc.Ordered.lookup (h : (Doc.node es).Ordered) (hk : es.lookup k = some t) : t.Ordered := by
  cases h with
  | node h hs => exact hs _ (mem_of_lookup hk)

/-- An insertion keeps a tree in order. -/
theorem Doc.Ordered.insert (h : (Doc.node es).Ordered) (ht : t.Ordered) (k : κ) :
    (Doc.node (KeyTree.insert k t es)).Ordered := by
  cases h with
  | node h hs =>
      refine .node (h.insert k t) fun e he => ?_
      rcases mem_insert he with rfl | he
      · exact ht
      · exact hs e he

theorem Doc.ordered_nil : (Doc.node [] : Doc κ α).Ordered :=
  .node .nil fun _ h => absurd h List.not_mem_nil

theorem Doc.Ordered.singleton (ht : t.Ordered) (k : κ) : (Doc.node [(k, t)]).Ordered :=
  Doc.ordered_nil.insert ht k

/-- Entries in order, and those of the trees in them. -/
@[ext] structure Table (κ α : Type) [LinearOrder κ] where
  entries : List (κ × Doc κ α)
  ordered : (Doc.node entries).Ordered

/-- The tree of a table. -/
def Table.tree (t : Table κ α) : Doc κ α := .node t.entries

theorem Table.tree_ordered (t : Table κ α) : t.tree.Ordered := t.ordered

theorem Table.ext_tree {t u : Table κ α} (h : t.tree = u.tree) : t = u :=
  Table.ext (Doc.node.inj h)

end KeyTree

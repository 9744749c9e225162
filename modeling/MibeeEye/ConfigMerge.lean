/-
**Merging shipped defaults into a local configuration.**

`merge_tables` of `src/config_migrate.rs` goes through the keys of the defaults.  A key that the local
table lacks is copied with all below it, and reported under its dotted path; where both sides have a
table it goes on below; everything else is left as it is.  The dotted path is made on the way down, and
an empty one stands for the root: a table under the empty key, which TOML allows, is taken for it.

Main definitions:

* `ConfigMerge.Value`, `ConfigMerge.mergeTables` — TOML values and the merge;
* `ConfigMerge.merge` — the merge of two tables in order;
* `ConfigMerge.MergeLaws` — what is claimed of it.

Main results:

* `ConfigMerge.mergeTables_fst`, `ConfigMerge.mem_mergeTables_snd` — **the merge fills in, and reports
  what was missing**;
* `ConfigMerge.mergeLaws_iff` — **the laws hold exactly when nothing is missing below the empty key**.
-/

import Mathlib.Data.Finset.Insert
import Mathlib.Data.Set.Function
import Mathlib.Data.String.Basic
import MibeeEye.TreeFill

set_option relaxedAutoImplicit false
set_option autoImplicit false

namespace ConfigMerge

open KeyTree

variable {α : Type}

/-! ### Values -/

/-- `toml::Value`: a table, or a value of another kind, into which nothing here looks. -/
abbrev Value (α : Type) := Doc String α

/-- `toml::value::Table`. -/
abbrev Entries (α : Type) := List (String × Value α)

/-- `Value::as_table`. -/
@[grind =] def asTable : Value α → Option (Entries α)
  | .leaf _ => none
  | .node entries => some entries

/-! ### The merge -/

/-- The dotted path of a key. -/
def childPath (path key : String) : String := if path = "" then key else path ++ "." ++ key

mutual

/-- `merge_tables`. -/
@[grind =]
def mergeTables (defaults : Value α) (loc : Entries α) (path : String) (added : Finset String) :
    Entries α × Finset String :=
  match defaults with
  | .leaf _ => (loc, added)
  | .node entries => mergeEntries entries loc path added

/-- The loop over the keys of the defaults. -/
@[grind =] def mergeEntries (entries loc : Entries α) (path : String) (added : Finset String) :
    Entries α × Finset String :=
  match entries with
  | [] => (loc, added)
  | (key, defVal) :: entries =>
      match loc.lookup key with
      | some existing =>
          match asTable defVal, asTable existing with
          | some _, some locInner =>
              let r := mergeTables defVal locInner (childPath path key) added
              mergeEntries entries (insert key (.node r.1) loc) path r.2
          | _, _ => mergeEntries entries loc path added
      | none =>
          mergeEntries entries (insert key defVal loc) path (Insert.insert (childPath path key) added)

end

variable {defaults : Value α} {ds loc : Entries α} {path s : String} {added : Finset String}

/-- A key that is lacking is copied. -/
theorem mergeEntries_of_none {key : String} {defVal : Value α} (h : loc.lookup key = none) :
    mergeEntries ((key, defVal) :: ds) loc path added =
      mergeEntries ds (insert key defVal loc) path (Insert.insert (childPath path key) added) := by
  rw [mergeEntries, h]

/-- A key with a value of another kind is left as it is. -/
theorem mergeEntries_of_leaf {key : String} {defVal : Value α} {a : α}
    (h : loc.lookup key = some (.leaf a)) :
    mergeEntries ((key, defVal) :: ds) loc path added = mergeEntries ds loc path added := by
  rw [mergeEntries, h]
  cases defVal <;> rfl

/-- A key with a table goes on below. -/
theorem mergeEntries_of_node {key : String} {defVal : Value α} {locInner : Entries α}
    (hloc : Ascending loc) (h : loc.lookup key = some (.node locInner)) :
    mergeEntries ((key, defVal) :: ds) loc path added =
      mergeEntries ds
        (insert key (.node (mergeTables defVal locInner (childPath path key) added).1) loc) path
        (mergeTables defVal locInner (childPath path key) added).2 := by
  rw [mergeEntries, h]
  cases defVal with
  | leaf a =>
      -- The defaults have no table here, and the local one is left as it is.
      have hsame : insert key (.node locInner) loc = loc := insert_eq_self hloc h
      simp only [asTable, mergeTables]
      rw [hsame]
  | node di => rfl

/-! ### What is left of the local values -/

/-- The keys of a table are filled in when the values below them are. -/
theorem mergeEntries_fst (hds : ∀ e ∈ ds, e.2.Ordered ∧ ∀ {es : Entries α} {path added},
      (Doc.node es).Ordered → .node (mergeTables e.2 es path added).1 = fill e.2 (.node es))
    (hloc : (Doc.node loc).Ordered) :
    (mergeEntries ds loc path added).1 = fillEntries ds loc := by
  induction ds generalizing loc path added with
  | nil => rw [mergeEntries, fillEntries]
  | cons e ds ih =>
      obtain ⟨key, defVal⟩ := e
      obtain ⟨hordered, hfill⟩ := hds _ List.mem_cons_self
      have htail := fun f hf => hds f (List.mem_cons_of_mem (key, defVal) hf)
      rw [fillEntries]
      cases hkey : loc.lookup key with
      | none =>
          rw [mergeEntries_of_none hkey]
          exact ih htail (hloc.insert hordered key)
      | some existing =>
          cases existing with
          | leaf a =>
              have hsame : insert key (.leaf a) loc = loc := insert_eq_self hloc.ascending hkey
              rw [mergeEntries_of_leaf hkey]
              simp only [fill_leaf, hsame]
              exact ih htail hloc
          | node locInner =>
              have hinner := hloc.lookup hkey
              rw [mergeEntries_of_node hloc.ascending hkey]
              simp only [hfill hinner]
              exact ih htail (hloc.insert (hordered.fill hinner) key)

/-- **The merge fills in the local table.** -/
theorem mergeTables_fst (hdefaults : defaults.Ordered) (hloc : (Doc.node loc).Ordered) :
    .node (mergeTables defaults loc path added).1 = fill defaults (.node loc) := by
  induction hdefaults generalizing loc path added with
  | leaf a => rw [mergeTables, fill]
  | node hds hs ih =>
      rw [mergeTables, fill]
      exact congrArg _ (mergeEntries_fst (fun e he => ⟨hs e he, ih e he⟩) hloc)

/-! ### What is reported -/

/-- What is missing under the first key, and under the others. -/
theorem missing_first_iff {key : String} {defVal : Value α} {fs : Entries α}
    (hds : Ascending ((key, defVal) :: ds)) (hfs : ∀ j, j ≠ key → fs.lookup j = loc.lookup j) :
    (∃ p, Missing (.node ((key, defVal) :: ds)) (.node loc) p ∧ s = p.foldl childPath path) ↔
      (∃ q, ((loc.lookup key = none ∧ q = []) ∨ ∃ t, loc.lookup key = some t ∧ Missing defVal t q) ∧
        s = q.foldl childPath (childPath path key)) ∨
      ∃ p, Missing (.node ds) (.node fs) p ∧ s = p.foldl childPath path := by
  constructor
  · rintro ⟨p, hp, hs⟩
    rcases (missing_entries_iff hds hfs).1 hp with ⟨q, rfl, hq⟩ | hp
    · exact .inl ⟨q, hq, hs⟩
    · exact .inr ⟨p, hp, hs⟩
  · rintro (⟨q, hq, hs⟩ | ⟨p, hp, hs⟩)
    · exact ⟨key :: q, (missing_entries_iff hds hfs).2 (.inl ⟨q, rfl, hq⟩), hs⟩
    · exact ⟨p, (missing_entries_iff hds hfs).2 (.inr hp), hs⟩

/-- The keys of a table are reported when those below them are. -/
theorem mem_mergeEntries_snd (hasc : Ascending ds) (hds : ∀ e ∈ ds, e.2.Ordered ∧
      ∀ {es : Entries α} {path added}, (Doc.node es).Ordered →
        (s ∈ (mergeTables e.2 es path added).2 ↔
          s ∈ added ∨ ∃ p, Missing e.2 (.node es) p ∧ s = p.foldl childPath path))
    (hloc : (Doc.node loc).Ordered) :
    s ∈ (mergeEntries ds loc path added).2 ↔
      s ∈ added ∨ ∃ p, Missing (.node ds) (.node loc) p ∧ s = p.foldl childPath path := by
  induction ds generalizing loc path added with
  | nil =>
      rw [mergeEntries]
      refine ⟨.inl, ?_⟩
      rintro (h | ⟨p, hp, -⟩)
      · exact h
      · cases p with
        | nil => exact absurd hp not_missing_nil
        | cons k p =>
            obtain ⟨d, hd, -⟩ := missing_cons_iff.1 hp
            cases hd
  | cons e ds ih =>
      obtain ⟨key, defVal⟩ := e
      obtain ⟨hordered, hsnd⟩ := hds _ List.mem_cons_self
      have ih := fun {es : Entries α} {path added} =>
        @ih es path added (List.pairwise_cons.1 hasc).2 fun f hf => hds f (List.mem_cons_of_mem _ hf)
      have hother : ∀ v j, j ≠ key → (insert key v loc).lookup j = loc.lookup j := by
        intro v j hj
        rw [lookup_insert, if_neg hj]
      cases hkey : loc.lookup key with
      | none =>
          rw [mergeEntries_of_none hkey, ih (hloc.insert hordered key), Finset.mem_insert,
            missing_first_iff hasc (hother defVal), hkey]
          constructor
          · rintro ((hs | hs) | hrest)
            · exact .inr (.inl ⟨[], .inl ⟨rfl, rfl⟩, hs⟩)
            · exact .inl hs
            · exact .inr (.inr hrest)
          · rintro (hs | ⟨q, ⟨-, rfl⟩ | ⟨t, ht, -⟩, hs⟩ | hrest)
            · exact .inl (.inr hs)
            · exact .inl (.inl hs)
            · cases ht
            · exact .inr hrest
      | some existing =>
          cases existing with
          | leaf a =>
              rw [mergeEntries_of_leaf hkey, ih hloc, missing_first_iff hasc fun j _ => rfl, hkey]
              constructor
              · rintro (hs | hrest)
                · exact .inl hs
                · exact .inr (.inr hrest)
              · rintro (hs | ⟨q, ⟨ht, -⟩ | ⟨t, ht, hq⟩, -⟩ | hrest)
                · exact .inl hs
                · cases ht
                · cases ht
                  exact absurd hq not_missing_of_leaf
                · exact .inr hrest
          | node locInner =>
              have hinner := hloc.lookup hkey
              have hmerged :
                  (Doc.node (mergeTables defVal locInner (childPath path key) added).1).Ordered := by
                rw [mergeTables_fst hordered hinner]
                exact hordered.fill hinner
              rw [mergeEntries_of_node hloc.ascending hkey, ih (hloc.insert hmerged key), hsnd hinner,
                missing_first_iff hasc (hother _), hkey]
              constructor
              · rintro ((hs | ⟨q, hq, hs⟩) | hrest)
                · exact .inl hs
                · exact .inr (.inl ⟨q, .inr ⟨_, rfl, hq⟩, hs⟩)
                · exact .inr (.inr hrest)
              · rintro (hs | ⟨q, ⟨ht, -⟩ | ⟨t, ht, hq⟩, hs⟩ | hrest)
                · exact .inl (.inl hs)
                · cases ht
                · cases ht
                  exact .inl (.inr ⟨q, hq, hs⟩)
                · exact .inr hrest

/-- **The merge reports what was missing.** -/
theorem mem_mergeTables_snd (hdefaults : defaults.Ordered) (hloc : (Doc.node loc).Ordered) :
    s ∈ (mergeTables defaults loc path added).2 ↔
      s ∈ added ∨ ∃ p, Missing defaults (.node loc) p ∧ s = p.foldl childPath path := by
  induction hdefaults generalizing loc path added with
  | leaf a =>
      rw [mergeTables]
      refine ⟨.inl, ?_⟩
      rintro (h | ⟨p, ⟨hfind, hnone, -⟩, -⟩)
      · exact h
      · obtain ⟨u, hu⟩ := Option.isSome_iff_exists.1 hfind
        rw [(Doc.find_leaf_iff.1 hu).1, Doc.find_nil] at hnone
        cases hnone
  | node hds hs ih =>
      rw [mergeTables]
      exact mem_mergeEntries_snd hds (fun e he => ⟨hs e he, ih e he⟩) hloc

/-! ### The merge of two tables -/

/-- The merge of two tables, and the dotted paths that it reports. -/
def merge (defaults loc : Table String α) : Table String α × Finset String :=
  (⟨(mergeTables defaults.tree loc.entries "" ∅).1,
      mergeTables_fst defaults.tree_ordered loc.tree_ordered ▸ defaults.tree_ordered.fill loc.tree_ordered⟩,
    (mergeTables defaults.tree loc.entries "" ∅).2)

theorem merge_tree (defaults loc : Table String α) :
    (merge defaults loc).1.tree = fill defaults.tree loc.tree :=
  mergeTables_fst defaults.tree_ordered loc.tree_ordered

theorem mem_merge_snd {defaults loc : Table String α} : s ∈ (merge defaults loc).2 ↔
    ∃ p, Missing defaults.tree loc.tree p ∧ s = p.foldl childPath "" := by
  refine (mem_mergeTables_snd defaults.tree_ordered loc.tree_ordered).trans ⟨fun h => ?_, .inr⟩
  rcases h with h | h
  · exact absurd h (Finset.notMem_empty s)
  · exact h

/-- **To merge again changes nothing and reports nothing.** -/
theorem merge_merge (defaults loc : Table String α) :
    merge defaults (merge defaults loc).1 = ((merge defaults loc).1, ∅) := by
  refine Prod.ext (Table.ext_tree ?_) (Finset.eq_empty_of_forall_notMem fun s hs => ?_)
  · rw [merge_tree, merge_tree, fill_fill defaults.tree_ordered loc.tree_ordered]
  · obtain ⟨p, hp, -⟩ := mem_merge_snd.1 hs
    rw [merge_tree] at hp
    exact not_missing_fill defaults.tree_ordered p hp

/-! ### Dotted paths -/

/-- The keys of a path, with dots between them. -/
def dotted (p : List String) : String := ".".intercalate p

/-- No key has a dot in it. -/
def DotFree (defaults : Value α) : Prop :=
  ∀ p v, defaults.find p = some v → ∀ k ∈ p, '.' ∉ k.toList

theorem dotFree_leaf (a : α) : DotFree (.leaf a : Value α) := by
  intro p v hv k hk
  rw [(Doc.find_leaf_iff.1 hv).1] at hk
  cases hk

theorem dotFree_node (h : ∀ e ∈ ds, '.' ∉ e.1.toList ∧ DotFree e.2) : DotFree (.node ds) := by
  intro p v hv k hk
  cases p with
  | nil => cases hk
  | cons j p =>
      obtain ⟨u, hu, hv⟩ := Option.bind_eq_some_iff.1 hv
      obtain ⟨hj, hbelow⟩ := h _ (mem_of_lookup hu)
      rcases List.mem_cons.1 hk with rfl | hk
      · exact hj
      · exact hbelow p v hv k hk

theorem foldl_childPath {acc : String} (hacc : acc ≠ "") (p : List String) :
    p.foldl childPath acc = dotted (acc :: p) := by
  induction p generalizing acc with
  | nil => exact String.intercalate_singleton.symm
  | cons k p ih =>
      have hchild : childPath acc k = acc ++ "." ++ k := if_neg hacc
      have hne : childPath acc k ≠ "" := by
        rw [hchild]
        intro h
        have hlist := congrArg String.toList h
        simp at hlist
      rw [List.foldl_cons, ih hne, hchild, dotted, dotted, String.intercalate_cons_cons,
        String.intercalate_cons_append]

/-- The path that is reported, unless it begins with the empty key and goes on. -/
theorem foldl_childPath_root {k : String} {p : List String} (h : k = "" → p = []) :
    (k :: p).foldl childPath "" = dotted (k :: p) := by
  by_cases hk : k = ""
  · rw [hk, h hk]
    exact String.intercalate_singleton.symm
  · rw [List.foldl_cons]
    exact foldl_childPath hk p

/-- No path that is reported begins with a dot. -/
theorem head_foldl_childPath {acc : String} {p : List String} (hacc : acc.toList.head? ≠ some '.')
    (hp : ∀ k ∈ p, '.' ∉ k.toList) : (p.foldl childPath acc).toList.head? ≠ some '.' := by
  induction p generalizing acc with
  | nil => exact hacc
  | cons k p ih =>
      refine ih ?_ fun j hj => hp j (List.mem_cons_of_mem k hj)
      rw [childPath]
      split
      · exact fun h => hp k List.mem_cons_self (List.mem_of_mem_head? h)
      · next hne =>
          have hcons : acc.toList ≠ [] := fun h => hne (String.toList_eq_nil_iff.1 h)
          rw [String.toList_append, String.toList_append, List.append_assoc,
            List.head?_append_of_ne_nil _ hcons]
          exact hacc

/-- A path that begins with the empty key and goes on begins with a dot. -/
theorem head_dotted_empty (k : String) (p : List String) :
    (dotted ("" :: k :: p)).toList.head? = some '.' := by
  rw [dotted, String.intercalate_cons_cons, String.toList_append, String.toList_append]
  rfl

/-- Keys without dots can be told from their dotted path. -/
theorem dotted_injOn : Set.InjOn dotted {p | p ≠ [] ∧ ∀ k ∈ p, '.' ∉ k.toList} := by
  have hsplit : ∀ p : List String, p ≠ [] → (∀ k ∈ p, '.' ∉ k.toList) →
      (dotted p).toList.splitOn '.' = p.map String.toList := by
    intro p hp hk
    rw [dotted, String.toList_intercalate]
    refine List.splitOn_intercalate '.' (fun l hl => ?_) (mt List.map_eq_nil_iff.1 hp)
    obtain ⟨k, hmem, rfl⟩ := List.mem_map.1 hl
    exact hk k hmem
  rintro p ⟨hp, hpk⟩ q ⟨hq, hqk⟩ h
  have hmap : p.map String.toList = q.map String.toList := by
    rw [← hsplit p hp hpk, ← hsplit q hq hqk, h]
  exact List.map_injective_iff.2 (fun _ _ => String.toList_inj.1) hmap

/-! ### What is claimed -/

/-- **What is claimed of the merge of two tables.** -/
structure MergeLaws (defaults loc : Table String α) : Prop where
  /-- Local values that are no tables are left as they are. -/
  kept : ∀ p a, loc.tree.find p = some (.leaf a) → (merge defaults loc).1.tree.find p = some (.leaf a)
  /-- Local tables are left in their places. -/
  tables : ∀ p es, loc.tree.find p = some (.node es) →
    ∃ fs, (merge defaults loc).1.tree.find p = some (.node fs)
  /-- Paths of the defaults are present. -/
  complete : ∀ p v, defaults.tree.find p = some v → ¬ Blocked loc.tree p →
    ((merge defaults loc).1.tree.find p).isSome
  /-- What is added is of the defaults. -/
  nothingElse : ∀ p v, (merge defaults loc).1.tree.find p = some v → loc.tree.find p = none →
    defaults.tree.find p = some v
  /-- What was missing is reported, each path under its own name. -/
  report : DotFree defaults.tree →
    Set.BijOn dotted {p | Missing defaults.tree loc.tree p} {s | s ∈ (merge defaults loc).2}
  /-- To merge again changes nothing and reports nothing. -/
  idempotent : merge defaults (merge defaults loc).1 = ((merge defaults loc).1, ∅)

/-- **The laws hold exactly when nothing is missing from a table under the empty key**, as far as the
keys of the defaults have no dots. -/
theorem mergeLaws_iff (defaults loc : Table String α) : MergeLaws defaults loc ↔
    (DotFree defaults.tree → ∀ p, Missing defaults.tree loc.tree ("" :: p) → p = []) := by
  have hkeys : DotFree defaults.tree → ∀ p, Missing defaults.tree loc.tree p → ∀ k ∈ p, '.' ∉ k.toList := by
    intro hdots p hp
    obtain ⟨v, hv⟩ := Option.isSome_iff_exists.1 hp.1
    exact hdots p v hv
  constructor
  · intro h hdots p hp
    by_contra hne
    obtain ⟨k, q, rfl⟩ := List.exists_cons_of_ne_nil hne
    obtain ⟨r, hr, hname⟩ := mem_merge_snd.1 ((h.report hdots).mapsTo hp)
    have hhead := head_dotted_empty k q
    rw [hname] at hhead
    exact head_foldl_childPath (by simp) (hkeys hdots r hr) hhead
  · intro hroot
    have hordered := defaults.tree_ordered
    refine ⟨fun p a h => ?_, fun p es h => ?_, fun p v h hp => ?_, fun p v h hp => ?_, fun hdots => ?_,
      merge_merge defaults loc⟩
    · rw [merge_tree]
      exact find_fill_leaf hordered h
    · rw [merge_tree]
      exact find_fill_node hordered h
    · rw [merge_tree]
      cases hfind : loc.tree.find p with
      | none =>
          rw [find_fill_of_not_find hordered hfind hp, h]
          rfl
      | some u =>
          rw [find_fill_of_find hordered hfind]
          rfl
    · rw [merge_tree] at h
      by_cases hblocked : Blocked loc.tree p
      · rw [find_of_blocked (hblocked.fill hordered)] at h
        cases h
      · rwa [find_fill_of_not_find hordered hp hblocked] at h
    · have hname : ∀ p, Missing defaults.tree loc.tree p → p.foldl childPath "" = dotted p := by
        intro p hp
        cases p with
        | nil => exact absurd hp not_missing_nil
        | cons k p => exact foldl_childPath_root fun hk => hroot hdots p (hk ▸ hp)
      refine ⟨fun p hp => ?_, ?_, fun s hs => ?_⟩
      · exact mem_merge_snd.2 ⟨p, hp, (hname p hp).symm⟩
      · refine dotted_injOn.mono fun p hp => And.intro ?_ (hkeys hdots p hp)
        rintro rfl
        exact not_missing_nil hp
      · obtain ⟨p, hp, hs⟩ := mem_merge_snd.1 hs
        exact ⟨p, hp, (hname p hp).symm.trans hs.symm⟩

/-- The defaults have a setting in a table under the empty key that the local file lacks, and it is
reported as if it stood at the root. -/
theorem not_mergeLaws_emptyKey :
    let defaults : Table String ℕ :=
      ⟨[("", .node [("a", .leaf 1)])], ((Doc.Ordered.leaf 1).singleton "a").singleton ""⟩
    let loc : Table String ℕ := ⟨[("", .node [])], Doc.ordered_nil.singleton ""⟩
    (merge defaults loc).2 = {"a"} ∧ ¬ MergeLaws defaults loc := by
  intro defaults loc
  have hadded : (merge defaults loc).2 = {"a"} := by decide
  refine ⟨hadded, fun h => ?_⟩
  have hdots : DotFree defaults.tree := by
    refine dotFree_node fun e he => ?_
    cases List.mem_singleton.1 he
    refine ⟨List.not_mem_nil, dotFree_node fun e he => ?_⟩
    cases List.mem_singleton.1 he
    exact ⟨by decide, dotFree_leaf 1⟩
  have hmissing : Missing defaults.tree loc.tree ["", "a"] :=
    missing_cons_iff.2 ⟨_, rfl, .inr ⟨_, rfl, missing_cons_iff.2 ⟨_, rfl, .inl ⟨rfl, rfl⟩⟩⟩⟩
  have hmem : dotted ["", "a"] ∈ (merge defaults loc).2 := (h.report hdots).mapsTo hmissing
  rw [hadded, Finset.mem_singleton] at hmem
  have hhead := head_dotted_empty "a" []
  rw [hmem] at hhead
  exact absurd hhead (by decide)

end ConfigMerge

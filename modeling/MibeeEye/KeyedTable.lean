/-
**Tables with a key.**

A table is a list of rows of which no two have the same key.  Rows are looked up by their key, removed
and changed by a condition, and added under a key that is not in use.

Main definitions:

* `Keyed.Table` — tables;
* `Keyed.Table.find?` — the row of a key;
* `Keyed.Table.filter`, `Keyed.Table.modify`, `Keyed.Table.insert`, `Keyed.Table.upsert` — what changes
  a table.

Main results:

* `Keyed.Table.find?_eq_some_iff` — **the row of a key is the one that has it**;
* `Keyed.Table.find?_filter`, `Keyed.Table.find?_modify`, `Keyed.Table.find?_insert`,
  `Keyed.Table.find?_upsert` — what the changes do to the row of a key;
* `Keyed.Table.size_upsert_of_mem`, `Keyed.Table.size_upsert_of_not_mem` — and to the number of rows;
* `Keyed.Table.sum_others` — a sum over the rows but one.
-/

import Mathlib.Algebra.BigOperators.Group.List.Basic
import Mathlib.Algebra.Order.Ring.Nat
import Mathlib.Data.List.Nodup

set_option relaxedAutoImplicit false
set_option autoImplicit false

namespace Keyed

variable {ρ κ : Type} {key : ρ → κ}

/-- Rows of which no two have the same key. -/
@[ext] structure Table (key : ρ → κ) where
  rows : List ρ
  nodup : (rows.map key).Nodup

namespace Table

/-- The table without rows. -/
def empty : Table key := ⟨[], List.nodup_nil⟩

/-- The number of rows. -/
def size (t : Table key) : ℕ := t.rows.length

/-- The rows that a condition holds of. -/
def filter (t : Table key) (p : ρ → Bool) : Table key :=
  ⟨t.rows.filter p, t.nodup.sublist (List.filter_sublist.map key)⟩

/-- The rows that a condition holds of are changed, and keep their keys. -/
def modify (t : Table key) (p : ρ → Bool) (f : ρ → ρ) (hf : ∀ r, key (f r) = key r) : Table key :=
  ⟨t.rows.map fun r => if p r then f r else r, by
    have hkeys : (key ∘ fun r => if p r then f r else r) = key := by
      funext r
      cases h : p r
      · simp [h]
      · simp [h, hf]
    rw [List.map_map, hkeys]
    exact t.nodup⟩

/-- A row with a key that is not in use. -/
def insert (t : Table key) (r : ρ) (h : key r ∉ t.rows.map key) : Table key :=
  ⟨t.rows ++ [r], by
    rw [List.map_append, List.map_singleton, ← List.concat_eq_append]
    exact t.nodup.concat h⟩

/-- The rows with another key. -/
def others [DecidableEq κ] (t : Table key) (k : κ) : Table key := t.filter fun r => !decide (key r = k)

theorem not_mem_others [DecidableEq κ] (t : Table key) (k : κ) : k ∉ (t.others k).rows.map key := by
  rintro hk
  obtain ⟨r, hr, hkey⟩ := List.mem_map.1 hk
  have hother := List.of_mem_filter hr
  simp [hkey] at hother

/-- The row of a key is replaced, or added if there is none. -/
def upsert [DecidableEq κ] (t : Table key) (r : ρ) : Table key :=
  (t.others (key r)).insert r (t.not_mem_others (key r))

@[simp] theorem mem_filter {t : Table key} {p : ρ → Bool} {r : ρ} :
    r ∈ (t.filter p).rows ↔ r ∈ t.rows ∧ p r := List.mem_filter

@[simp] theorem mem_insert {t : Table key} {r r' : ρ} {h : key r ∉ t.rows.map key} :
    r' ∈ (t.insert r h).rows ↔ r' ∈ t.rows ∨ r' = r := by simp [insert]

@[simp] theorem size_insert {t : Table key} {r : ρ} {h : key r ∉ t.rows.map key} :
    (t.insert r h).size = t.size + 1 := by simp [size, insert]

/-- A condition that holds of all rows. -/
theorem filter_eq_self {t : Table key} {p : ρ → Bool} (h : ∀ r ∈ t.rows, p r) : t.filter p = t :=
  Table.ext (List.filter_eq_self.2 h)

theorem size_filter_le (t : Table key) (p : ρ → Bool) : (t.filter p).size ≤ t.size :=
  List.length_filter_le p t.rows

/-! ### The row of a key -/

variable [DecidableEq κ] {t : Table key} {k : κ} {r : ρ}

/-- The row with this key. -/
def find? (t : Table key) (k : κ) : Option ρ := t.rows.find? fun r => key r = k

/-- **The row of a key is the one that has it.** -/
theorem find?_eq_some_iff : t.find? k = some r ↔ r ∈ t.rows ∧ key r = k := by
  have hsound : ∀ {r' : ρ}, t.find? k = some r' → r' ∈ t.rows ∧ key r' = k := by
    intro r' hr'
    have hkey := List.find?_some hr'
    exact ⟨List.mem_of_find?_eq_some hr', of_decide_eq_true hkey⟩
  refine ⟨hsound, ?_⟩
  rintro ⟨hmem, hkey⟩
  have hsome : (t.find? k).isSome := List.find?_isSome.2 ⟨r, hmem, decide_eq_true hkey⟩
  obtain ⟨r', hr'⟩ := Option.isSome_iff_exists.1 hsome
  -- the row that was found is this one, since their keys are the same
  have hsame : r' = r :=
    List.inj_on_of_nodup_map t.nodup (hsound hr').1 hmem ((hsound hr').2.trans hkey.symm)
  rw [hr', hsame]

theorem find?_eq_none_iff : t.find? k = none ↔ k ∉ t.rows.map key := by
  simp [find?]

/-- Two tables in which a key has the same rows. -/
theorem find?_congr {t t' : Table key} (h : ∀ r, key r = k → (r ∈ t.rows ↔ r ∈ t'.rows)) :
    t.find? k = t'.find? k := by
  ext r
  rw [find?_eq_some_iff, find?_eq_some_iff]
  constructor
  · rintro ⟨hr, hk⟩
    exact ⟨(h r hk).1 hr, hk⟩
  · rintro ⟨hr, hk⟩
    exact ⟨(h r hk).2 hr, hk⟩

theorem find?_filter (t : Table key) (p : ρ → Bool) (k : κ) :
    (t.filter p).find? k = (t.find? k).filter p := by
  ext r
  simp only [Option.filter_eq_some_iff, find?_eq_some_iff, mem_filter]
  tauto

theorem find?_insert (h : key r ∉ t.rows.map key) (k : κ) :
    (t.insert r h).find? k = if key r = k then some r else t.find? k := by
  split
  · rename_i hk
    rw [find?_eq_some_iff, mem_insert]
    exact ⟨Or.inr rfl, hk⟩
  · rename_i hk
    refine find?_congr fun r' hr' => ?_
    rw [mem_insert, or_iff_left]
    rintro rfl
    exact hk hr'

theorem find?_modify (t : Table key) (p : ρ → Bool) {f : ρ → ρ} (hf : ∀ r, key (f r) = key r)
    (k : κ) : (t.modify p f hf).find? k = (t.find? k).map fun r => if p r then f r else r := by
  have hkey : ∀ r, key (if p r then f r else r) = key r := by
    intro r
    cases p r
    · rfl
    · exact hf r
  rw [find?, modify, List.find?_map]
  simp only [Function.comp_def, hkey]
  rfl

theorem find?_upsert (t : Table key) (r : ρ) (k : κ) :
    (t.upsert r).find? k = if key r = k then some r else t.find? k := by
  rw [upsert, find?_insert]
  split
  · rfl
  · rename_i hk
    refine find?_congr fun r' hr' => ?_
    have hother : key r' ≠ key r := fun heq => hk (heq.symm.trans hr')
    simp [others, hother]

/-! ### The number of rows -/

/-- One row has a key that is in use. -/
theorem size_others (h : k ∈ t.rows.map key) : (t.others k).size + 1 = t.size := by
  have hone : t.rows.countP (fun r => decide (key r = k)) = 1 := by
    have hcount := List.count_eq_one_of_mem t.nodup h
    rw [List.count_eq_countP, List.countP_map] at hcount
    have hfun : ((fun k' => k' == k) ∘ key) = fun r => decide (key r = k) := by
      funext r
      exact beq_eq_decide (key r) k
    rwa [hfun] at hcount
  rw [size, size, List.length_eq_countP_add_countP (fun r => decide (key r = k)) (l := t.rows), hone,
    Nat.add_comm, others, filter, List.countP_eq_length_filter]
  simp

theorem mem_upsert {r' : ρ} (h : r' ∈ (t.upsert r).rows) : r' ∈ t.rows ∨ r' = r := by
  rcases mem_insert.1 h with hold | hnew
  · exact Or.inl (mem_filter.1 hold).1
  · exact Or.inr hnew

theorem mem_upsert_self (t : Table key) (r : ρ) : r ∈ (t.upsert r).rows := mem_insert.2 (.inr rfl)

/-- The number of rows after one was replaced. -/
theorem size_upsert_of_mem (h : key r ∈ t.rows.map key) : (t.upsert r).size = t.size := by
  rw [upsert, size_insert, size_others h]

/-- The number of rows after one was added. -/
theorem size_upsert_of_not_mem (h : key r ∉ t.rows.map key) : (t.upsert r).size = t.size + 1 := by
  have hall : t.others (key r) = t := by
    refine filter_eq_self fun r' hr' => ?_
    have hne : key r' ≠ key r := fun heq => h (heq ▸ List.mem_map_of_mem hr')
    simp [hne]
  rw [upsert, size_insert, hall]

/-- What the rows with another key add up to. -/
theorem sum_others {f : ρ → ℕ} (h : t.find? k = some r) :
    ((t.others k).rows.map f).sum + f r = (t.rows.map f).sum := by
  obtain ⟨hmem, rfl⟩ := find?_eq_some_iff.1 h
  have hnodup := t.nodup
  change ((t.rows.filter _).map f).sum + f r = _
  generalize t.rows = rows at hmem hnodup
  induction rows with
  | nil => cases hmem
  | cons a rows ih =>
      obtain ⟨hnot, hrows⟩ := List.nodup_cons.1 hnodup
      rcases List.mem_cons.1 hmem with rfl | hr
      · have hall : rows.filter (fun r' => !decide (key r' = key r)) = rows := by
          refine List.filter_eq_self.2 fun r' hr' => ?_
          have hne : key r' ≠ key r := fun heq => hnot (heq ▸ List.mem_map_of_mem hr')
          simp [hne]
        simp [hall, Nat.add_comm]
      · have hne : key a ≠ key r := fun heq => hnot (heq ▸ List.mem_map_of_mem hr)
        simp [hne, Nat.add_assoc, ih hr hrows]

theorem size_upsert_le (t : Table key) (r : ρ) : (t.upsert r).size ≤ t.size + 1 := by
  by_cases h : key r ∈ t.rows.map key
  · rw [size_upsert_of_mem h]
    exact Nat.le_succ _
  · exact Nat.le_of_eq (size_upsert_of_not_mem h)

end Table

end Keyed

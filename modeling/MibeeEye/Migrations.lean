/-
**Database migrations.**

`run_migrations` in `crates/web/src/db.rs` creates the table `schema_version`, reads the highest
version that is recorded there, and applies the migrations with a higher number in their order.  A
migration is a text of SQL statements; when it has been executed, its version is inserted.  The
statements and the insert are writes of their own: nothing groups them into a transaction.

When the process dies, or a write fails, the database is left as it was after the writes before.  The
next call of `run_migrations` starts with the migration whose version is not recorded, from its first
statement, also when some of its statements have been executed.

What a statement does to the schema is up to the database: it is a parameter, a partial function.

Main definitions:

* `Db.MigrationSet`, `Db.collectMigrations` — the migrations, by their numbers;
* `Db.Write`, `Db.write`, `Db.runMigrations` — the writes of `run_migrations`;
* `Db.Survives` — a later call completes what was interrupted;
* `Db.Harmless` — statements that may be executed again.

Main results:

* `Db.exec_writes` — what the writes of complete migrations do;
* `Db.survives_iff` — **an interrupted call is completed by a later one exactly when the statements of
  the interrupted migration that were executed may be executed again**.
-/

import MibeeEye.StepMachine
import Mathlib.Data.Int.Order.Basic
import Mathlib.Order.MinMax

set_option relaxedAutoImplicit false
set_option autoImplicit false

namespace Db

open Machine

/-! ### Migrations -/

/-- A migration: its number, the name of its file, and the statements of the file. -/
structure Migration (S : Type) where
  version : ℤ
  name : String
  sql : List S

/-- Migrations in the order of their numbers, as a `BTreeMap` lists them. -/
structure MigrationSet (S : Type) where
  migrations : List (Migration S)
  sorted : migrations.Pairwise fun a b => a.version < b.version

variable {S : Type}

/-- A file is put into the map; it replaces one with the same number. -/
@[grind =] def insertMigration (m : Migration S) : List (Migration S) → List (Migration S)
  | [] => [m]
  | a :: as =>
      if m.version < a.version then m :: a :: as
      else if m.version = a.version then m :: as
      else a :: insertMigration m as

theorem mem_insertMigration {m x : Migration S} {l : List (Migration S)}
    (h : x ∈ insertMigration m l) : x = m ∨ x ∈ l := by
  induction l with
  | nil => exact .inl (List.mem_singleton.1 h)
  | cons a as ih =>
      rw [insertMigration] at h
      split at h
      · exact List.mem_cons.1 h
      · split at h
        · rcases List.mem_cons.1 h with h | h
          · exact .inl h
          · exact .inr (List.mem_cons_of_mem _ h)
        · rcases List.mem_cons.1 h with h | h
          · exact .inr (h ▸ List.mem_cons_self)
          · rcases ih h with h | h
            · exact .inl h
            · exact .inr (List.mem_cons_of_mem _ h)

/-- The map stays in order. -/
theorem sorted_insertMigration (m : Migration S) {l : List (Migration S)}
    (h : l.Pairwise fun a b => a.version < b.version) :
    (insertMigration m l).Pairwise fun a b => a.version < b.version := by
  induction l with
  | nil => exact List.pairwise_singleton _ _
  | cons a as ih =>
      obtain ⟨ha, has⟩ := List.pairwise_cons.1 h
      rw [insertMigration]
      split
      · rename_i hlt
        refine List.pairwise_cons.2 ⟨?_, h⟩
        intro b hb
        rcases List.mem_cons.1 hb with rfl | hb
        · exact hlt
        · exact hlt.trans (ha b hb)
      · split
        · rename_i heq
          refine List.pairwise_cons.2 ⟨?_, has⟩
          intro b hb
          rw [heq]
          exact ha b hb
        · rename_i hle hne
          refine List.pairwise_cons.2 ⟨?_, ih has⟩
          intro b hb
          rcases mem_insertMigration hb with rfl | hb
          · omega
          · exact ha b hb

/-- A file is added to a set. -/
def MigrationSet.insert (ms : MigrationSet S) (m : Migration S) : MigrationSet S :=
  ⟨insertMigration m ms.migrations, sorted_insertMigration m ms.sorted⟩

/-- `collect_migrations`: the embedded files, overlaid by those of the local directory. -/
def collectMigrations (embedded localDir : List (Migration S)) : MigrationSet S :=
  (embedded ++ localDir).foldl MigrationSet.insert ⟨[], List.Pairwise.nil⟩

/-! ### Writes -/

/-- A database: its schema, and the rows of `schema_version` when that table exists. -/
structure Database (D : Type) where
  schema : D
  versionTable : Bool := false
  versions : List ℤ := []

variable {D : Type}

/-- `SELECT COALESCE(MAX(version), 0) FROM schema_version` -/
def Database.currentVersion (db : Database D) : ℤ := db.versions.max?.getD 0

/-- A write of `run_migrations`. -/
inductive Write (S : Type)
  /-- `CREATE TABLE IF NOT EXISTS schema_version` -/
  | createVersionTable
  /-- A statement of a migration. -/
  | statement (s : S)
  /-- `INSERT INTO schema_version` -/
  | insertVersion (version : ℤ)

/-- What a write does; `apply` is what a statement does to the schema, if it does not fail. -/
@[grind =] def write (apply : D → S → Option D) (db : Database D) : Write S → Option (Database D)
  | .createVersionTable => some { db with versionTable := true }
  | .statement s => (apply db.schema s).map fun schema => { db with schema }
  | .insertVersion version =>
      if db.versionTable then some { db with versions := version :: db.versions } else none

/-- The writes for a migration. -/
def Migration.writes (m : Migration S) : List (Write S) :=
  m.sql.map .statement ++ [.insertVersion m.version]

/-- The migrations that are not recorded. -/
def pending (ms : MigrationSet S) (db : Database D) : List (Migration S) :=
  ms.migrations.filter fun m => db.currentVersion < m.version

/-- The writes of `run_migrations`. -/
def writes (ms : MigrationSet S) (db : Database D) : List (Write S) :=
  .createVersionTable :: (pending ms db).flatMap Migration.writes

/-- `run_migrations`, when nothing interrupts it. -/
def runMigrations (apply : D → S → Option D) (ms : MigrationSet S) (db : Database D) :
    Option (Database D) :=
  exec (write apply) db (writes ms db)

/-! ### What is to hold -/

/-- The statements of some migrations. -/
def statements (ms : List (Migration S)) : List S := ms.flatMap Migration.sql

/-- **A later call completes what was interrupted after `n` writes**: it succeeds, and the schema is
the one in which every migration was applied once, in their order. -/
def Survives (apply : D → S → Option D) (ms : MigrationSet S) (db : Database D) (n : ℕ) : Prop :=
  ∃ db' db'', exec (write apply) db ((writes ms db).take n) = some db' ∧
    runMigrations apply ms db' = some db'' ∧
    exec apply db.schema (statements (pending ms db)) = some db''.schema

/-- After `n` writes, `i` statements of the migration `m` have been executed, and its version is not
recorded. -/
structure Interrupted (pending : List (Migration S)) (n : ℕ) (complete : List (Migration S))
    (m : Migration S) (i : ℕ) (rest : List (Migration S)) : Prop where
  pending_eq : pending = complete ++ m :: rest
  writes_eq : n = (complete.flatMap Migration.writes).length + i + 1
  le_length : i ≤ m.sql.length

/-- **The statements may be executed again**: they do not fail, and what remains to be done leads to
the same schema. -/
def Harmless (apply : D → S → Option D) (again remaining : List S) (schema : D) : Prop :=
  ∃ schema', exec apply schema again = some schema' ∧
    exec apply schema' remaining = exec apply schema remaining

/-! ### What the writes do -/

section Writes

variable {apply : D → S → Option D}

/-- The statements of a migration change the schema. -/
theorem exec_statements (db : Database D) (sql : List S) :
    exec (write apply) db (sql.map .statement)
      = (exec apply db.schema sql).map fun schema => { db with schema } := by
  induction sql generalizing db with
  | nil => rfl
  | cons s sql ih =>
      rw [List.map_cons, exec_cons, exec_cons, write]
      cases apply db.schema s with
      | none => rfl
      | some schema => exact ih { db with schema }

/-- The database after some migrations have led to a schema. -/
def Database.advance (db : Database D) (ms : List (Migration S)) (schema : D) : Database D :=
  { db with schema, versions := (ms.map Migration.version).reverse ++ db.versions }

/-- **The writes of complete migrations** execute their statements and record their versions. -/
theorem exec_writes {db : Database D} (htable : db.versionTable = true) (ms : List (Migration S)) :
    exec (write apply) db (ms.flatMap Migration.writes)
      = (exec apply db.schema (statements ms)).map (db.advance ms) := by
  induction ms generalizing db with
  | nil => rfl
  | cons m ms ih =>
      rw [List.flatMap_cons, Migration.writes, List.append_assoc, exec_append, exec_statements,
        statements, List.flatMap_cons, exec_append]
      cases exec apply db.schema m.sql with
      | none => rfl
      | some schema =>
          simp only [Option.map_some, Option.bind_some, List.singleton_append, exec_cons, write,
            htable, if_true]
          rw [ih rfl]
          refine congrArg (Option.map · _) (funext fun schema' => ?_)
          simp [Database.advance, htable]

/-- What a call of `run_migrations` gives that is not interrupted. -/
theorem runMigrations_eq (ms : MigrationSet S) (db : Database D) :
    runMigrations apply ms db = (exec apply db.schema (statements (pending ms db))).map
      (Database.advance { db with versionTable := true } (pending ms db)) := by
  rw [runMigrations, writes, exec_cons, write, Option.bind_some, exec_writes rfl]

/-! ### What is pending -/

/-- The version that is inserted is the current one. -/
theorem currentVersion_cons {db : Database D} {schema : D} {table : Bool} {v : ℤ}
    (h : db.currentVersion < v) :
    Database.currentVersion ⟨schema, table, v :: db.versions⟩ = v := by
  rw [Database.currentVersion] at h ⊢
  rw [List.max?_cons]
  cases hmax : db.versions.max? with
  | none => rfl
  | some w =>
      rw [hmax] at h
      exact max_eq_left (le_of_lt h)

/-- **When the first of the pending migrations has been recorded, the others are pending.** -/
theorem pending_record {ms : MigrationSet S} {db : Database D} {m : Migration S}
    {rest : List (Migration S)} (h : pending ms db = m :: rest) (schema : D) (table : Bool) :
    pending ms (⟨schema, table, m.version :: db.versions⟩ : Database D) = rest := by
  have hm : db.currentVersion < m.version := by
    have hmem : m ∈ pending ms db := h ▸ List.mem_cons_self
    simpa using (List.mem_filter.1 hmem).2
  have hsorted : (m :: rest).Pairwise fun a b => a.version < b.version :=
    h ▸ ms.sorted.filter _
  have hlater : ∀ x ∈ rest, m.version < x.version := (List.pairwise_cons.1 hsorted).1
  -- what is pending later is pending now
  have hfilter : pending ms (⟨schema, table, m.version :: db.versions⟩ : Database D)
      = (pending ms db).filter fun x => m.version < x.version := by
    rw [pending, currentVersion_cons hm, pending, List.filter_filter]
    refine List.filter_congr fun x _ => ?_
    by_cases hx : m.version < x.version
    · simp [hx, hm.trans hx]
    · simp [hx]
  rw [hfilter, h, List.filter_cons]
  simp only [lt_irrefl, decide_false, Bool.false_eq_true, if_false]
  rw [List.filter_eq_self]
  intro x hx
  exact decide_eq_true (hlater x hx)

/-- When some of the pending migrations are complete, the others are pending. -/
theorem pending_advance {ms : MigrationSet S} {complete rest : List (Migration S)}
    {db : Database D} (h : pending ms db = complete ++ rest) (schema : D) :
    pending ms (db.advance complete schema) = rest := by
  induction complete generalizing db with
  | nil => exact h
  | cons m complete ih =>
      have := ih (pending_record h schema db.versionTable)
      simpa [Database.advance] using this

end Writes

/-! ### Where a call is interrupted -/

/-- A call that is interrupted before its last write is interrupted in a migration. -/
theorem exists_interrupted {ms : List (Migration S)} {n : ℕ}
    (h : n < (ms.flatMap Migration.writes).length) :
    ∃ complete m i rest, Interrupted ms (n + 1) complete m i rest := by
  induction ms generalizing n with
  | nil => cases h
  | cons m ms ih =>
      by_cases hn : n ≤ m.sql.length
      · -- also when all its statements have been executed and only the version is missing
        exact ⟨[], m, n, ms, rfl, by simp, hn⟩
      · have hlength : m.writes.length = m.sql.length + 1 := by simp [Migration.writes]
        rw [List.flatMap_cons, List.length_append, hlength] at h
        obtain ⟨complete, m', i, rest, hpending, hwrites, hi⟩ :=
          ih (n := n - (m.sql.length + 1)) (by omega)
        refine ⟨m :: complete, m', i, rest, by rw [hpending]; rfl, ?_, hi⟩
        rw [List.flatMap_cons, List.length_append, hlength]
        omega

/-- The writes that were done. -/
theorem take_writes {ms : MigrationSet S} {db : Database D} {n i : ℕ}
    {complete rest : List (Migration S)} {m : Migration S}
    (h : Interrupted (pending ms db) n complete m i rest) :
    (writes ms db).take n = .createVersionTable ::
      (complete.flatMap Migration.writes ++ (m.sql.take i).map .statement) := by
  obtain ⟨hpending, rfl, hi⟩ := h
  rw [writes, List.take_succ_cons, hpending, List.flatMap_append, List.flatMap_cons,
    List.take_length_add_append, Migration.writes, List.append_assoc,
    List.take_append_of_le_length (by simpa using hi), List.map_take]

/-- The database that is left. -/
theorem exec_take {apply : D → S → Option D} {ms : MigrationSet S} {db : Database D} {n i : ℕ}
    {complete rest : List (Migration S)} {m : Migration S}
    (h : Interrupted (pending ms db) n complete m i rest) :
    exec (write apply) db ((writes ms db).take n)
      = (exec apply db.schema (statements complete ++ m.sql.take i)).map
          (Database.advance { db with versionTable := true } complete) := by
  rw [take_writes h, exec_cons, write, Option.bind_some, exec_append, exec_writes rfl, exec_append]
  cases exec apply db.schema (statements complete) with
  | none => rfl
  | some schema =>
      rw [Option.map_some, Option.bind_some, Option.bind_some, exec_statements]
      rfl

/-- The statements before and after the interruption. -/
theorem statements_of_interrupted {ms complete rest : List (Migration S)} {m : Migration S}
    {n i : ℕ} (h : Interrupted ms n complete m i rest) :
    statements ms = (statements complete ++ m.sql.take i) ++ (m.sql.drop i ++ statements rest) := by
  rw [h.pending_eq, statements, List.flatMap_append, List.flatMap_cons, List.append_assoc,
    ← List.append_assoc (m.sql.take i), List.take_append_drop]
  rfl

/-! ### Surviving -/

/-- A later call that leads to the same schema. -/
theorem survives_of {apply : D → S → Option D} {ms : MigrationSet S} {db db' : Database D} {n : ℕ}
    {final : D} (hleft : exec (write apply) db ((writes ms db).take n) = some db')
    (hagain : exec apply db'.schema (statements (pending ms db')) = some final)
    (hfinal : exec apply db.schema (statements (pending ms db)) = some final) :
    Survives apply ms db n := by
  refine ⟨db', Database.advance { db' with versionTable := true } (pending ms db') final, hleft, ?_,
    hfinal⟩
  rw [runMigrations_eq, hagain]
  rfl

/-- **Surviving an interruption in a migration.** -/
theorem survives_interrupted_iff {apply : D → S → Option D} {ms : MigrationSet S}
    {db : Database D} {n i : ℕ} {complete rest : List (Migration S)} {m : Migration S}
    (h : Interrupted (pending ms db) n complete m i rest) {schema final : D}
    (hschema : exec apply db.schema (statements complete ++ m.sql.take i) = some schema)
    (hfinal : exec apply schema (m.sql.drop i ++ statements rest) = some final) :
    Survives apply ms db n ↔
      Harmless apply (m.sql.take i) (m.sql.drop i ++ statements rest) schema := by
  have hleft : exec (write apply) db ((writes ms db).take n)
      = some (Database.advance { db with versionTable := true } complete schema) := by
    rw [exec_take h, hschema]
    rfl
  have hbefore : pending ms ({ db with versionTable := true } : Database D)
      = complete ++ m :: rest := h.pending_eq
  -- the interrupted migration is not recorded, so the next call begins with it
  have hpending := pending_advance hbefore schema
  have hwhole : exec apply db.schema (statements (pending ms db)) = some final := by
    rw [statements_of_interrupted h, exec_append, hschema]
    exact hfinal
  have hagain : exec apply schema (statements (m :: rest))
      = (exec apply schema (m.sql.take i)).bind fun schema' =>
          exec apply schema' (m.sql.drop i ++ statements rest) := by
    rw [← exec_append, ← List.append_assoc, List.take_append_drop]
    rfl
  constructor
  · rintro ⟨db', db'', hdb', hrun, hdone⟩
    obtain rfl := Option.some.inj (hleft.symm.trans hdb')
    rw [runMigrations_eq, hpending] at hrun
    obtain ⟨last, hlast, rfl⟩ := Option.map_eq_some_iff.1 hrun
    have hlast' : exec apply schema (statements (m :: rest)) = some last := hlast
    rw [hagain] at hlast'
    obtain ⟨schema', hschema', hremaining⟩ := Option.bind_eq_some_iff.1 hlast'
    refine ⟨schema', hschema', ?_⟩
    rw [hremaining, hfinal, ← hwhole, hdone]
    rfl
  · rintro ⟨schema', hschema', hremaining⟩
    have hlast : exec apply schema (statements (m :: rest)) = some final := by
      rw [hagain, hschema', Option.bind_some, hremaining, hfinal]
    refine survives_of hleft ?_ hwhole
    rw [hpending]
    exact hlast

/-- A call that is not interrupted in a migration has done nothing or everything. -/
theorem survives_of_not_interrupted {apply : D → S → Option D} {ms : MigrationSet S}
    {db : Database D} {n : ℕ} {final : D}
    (hfinal : exec apply db.schema (statements (pending ms db)) = some final)
    (h : ∀ complete m i rest, ¬ Interrupted (pending ms db) n complete m i rest) :
    Survives apply ms db n := by
  cases n with
  | zero =>
      exact survives_of rfl hfinal hfinal
  | succ n =>
      have hlength : ((pending ms db).flatMap Migration.writes).length ≤ n := by
        by_contra hlt
        obtain ⟨complete, m, i, rest, hcut⟩ := exists_interrupted (Nat.lt_of_not_le hlt)
        exact h complete m i rest hcut
      have hleft : exec (write apply) db ((writes ms db).take (n + 1))
          = some (Database.advance { db with versionTable := true } (pending ms db) final) := by
        rw [List.take_of_length_le (by simpa [writes] using hlength)]
        have hrun : runMigrations apply ms db = _ := runMigrations_eq ms db
        rw [hfinal] at hrun
        exact hrun
      have hbefore : pending ms ({ db with versionTable := true } : Database D)
          = pending ms db ++ [] := (List.append_nil _).symm
      refine survives_of hleft ?_ hfinal
      rw [pending_advance hbefore final]
      rfl

/-- Statements as they are in the migrations of the repository. -/
inductive Sql
  /-- `CREATE TABLE IF NOT EXISTS` -/
  | createTableIfNotExists (table : String) (columns : List String)
  /-- `ALTER TABLE … ADD COLUMN` -/
  | addColumn (table column : String)
  deriving DecidableEq, Repr

/-- The columns of the tables. -/
abbrev Tables := List (String × List String)

/-- A column that exists cannot be added. -/
def Sql.apply (tables : Tables) : Sql → Option Tables
  | createTableIfNotExists table columns =>
      match tables.lookup table with
      | some _ => some tables
      | none => some (tables ++ [(table, columns)])
  | addColumn table column =>
      match tables.lookup table with
      | some columns =>
          if column ∈ columns then none
          else some (tables.map fun t => if t.1 = table then (t.1, t.2 ++ [column]) else t)
      | none => none

/-- Two of the migrations. -/
def cameraMigrations : MigrationSet Sql := collectMigrations [
  ⟨4, "004__add_offline_since.sql", [.addColumn "cameras" "offline_since"]⟩,
  ⟨1, "001_initial.sql", [.createTableIfNotExists "cameras" ["id", "name"]]⟩] []

/-- The process dies when the table has been created and its version is not recorded. -/
example : Survives Sql.apply cameraMigrations (⟨[], false, []⟩ : Database Tables) 2 :=
  ⟨_, _, rfl, rfl, rfl⟩

end Db

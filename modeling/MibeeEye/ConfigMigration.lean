/-
**Migrating the local configuration file.**

`migrate_local_config` of `src/config_migrate.rs` reads the shipped defaults and the local file, merges
them, writes the local text as it was to a backup beside it and the merged text over the local file.
Both writes are `std::fs::write`, which truncates its target before it writes: a write that fails can
leave what was there, or any beginning of what was to be written.  What TOML text means is a parameter.

Main definitions:

* `ConfigMigration.Toml` — the reader and the writer of TOML;
* `ConfigMigration.Write` — how a write ends;
* `ConfigMigration.migrateLocalConfig` — one migration;
* `ConfigMigration.Keeps` — a text has the settings of another;
* `ConfigMigration.Lossless`, `ConfigMigration.Intact` — what is claimed of a step, and the condition.

Main results:

* `ConfigMigration.migrate_spec` — what an intact migration does to the files;
* `ConfigMigration.lossless_occurs` — **every run of intact migrations**, with whatever the operator
  saves in between.
-/

import MibeeEye.ConfigMerge
import MibeeEye.StepMachine
import MibeeEye.Utf8

set_option relaxedAutoImplicit false
set_option autoImplicit false

namespace ConfigMigration

open KeyTree ConfigMerge Machine Wire

variable {α : Type}

/-! ### Files -/

/-- `toml::from_str` and `toml::to_string_pretty`. -/
structure Toml (α : Type) where
  fromStr : String → Option { v : Value α // v.Ordered }
  toStringPretty : Value α → Option String

/-- The text of a value is read as the value. -/
def Toml.RoundTrips (T : Toml α) : Prop :=
  ∀ v s, T.toStringPretty v.val = some s → T.fromStr s = some v

/-- How a call of `std::fs::write` ends. -/
inductive Write
  | done
  /-- The file could not be opened for writing. -/
  | refused
  /-- It was truncated, and only so many bytes were written. -/
  | torn (n : ℕ)
  deriving DecidableEq

/-- What stands at the path then. -/
def Write.leaves : Write → Option (List UInt8) → List UInt8 → Option (List UInt8)
  | done, _, new => some new
  | refused, old, _ => old
  | torn n, _, new => some (new.take n)

/-- The local file and the backup, as far as they exist. -/
structure Files where
  loc : Option (List UInt8)
  backup : Option (List UInt8)

/-! ### One migration -/

/-- `MigrationReport`. -/
structure MigrationReport where
  added : Finset String := ∅
  backup : Option String := none

/-- What an error names. -/
inductive MigrateError
  | defaultsUnreadable
  | defaultsNotToml
  | localUnreadable
  | localNotToml
  | localNotTable
  | backup
  | serialise
  | write
  deriving DecidableEq

/-- What a migration meets with. -/
structure Migration where
  /-- The bytes of the defaults, when they can be read. -/
  defaults : Option (List UInt8)
  /-- The local file cannot be read, though it may be there. -/
  localUnreadable : Bool := false
  backupPath : String := "config.local.toml.bak-migrate"
  backupWrite : Write := .done
  localWrite : Write := .done

/-- The write of the local file. -/
def writeLocal (m : Migration) (files : Files) (report : MigrationReport) (newContents : String) :
    Files × Except MigrateError MigrationReport :=
  let files := { files with loc := m.localWrite.leaves files.loc (asBytes newContents) }
  if m.localWrite = .done then (files, .ok report) else (files, .error .write)

/-- There is a local file. -/
def migrateExisting (T : Toml α) (m : Migration) (files : Files) (defaults : Value α)
    (localRaw : String) : Files × Except MigrateError MigrationReport :=
  match T.fromStr localRaw with
  | none => (files, .error .localNotToml)
  | some loc =>
      match asTable loc.val with
      | none => (files, .error .localNotTable)
      | some table =>
          let r := mergeTables defaults table "" ∅
          if r.2 = ∅ then (files, .ok {})
          else
            let files := { files with backup := m.backupWrite.leaves files.backup (asBytes localRaw) }
            if m.backupWrite = .done then
              match T.toStringPretty (.node r.1) with
              | none => (files, .error .serialise)
              | some newContents =>
                  writeLocal m files { added := r.2, backup := some m.backupPath } newContents
            else (files, .error .backup)

/-- The keys of the defaults, when they are a table. -/
def seeded (defaults : Value α) : Finset String :=
  match asTable defaults with
  | none => ∅
  | some table => (table.map Prod.fst).toFinset

/-- `migrate_local_config`. -/
def migrateLocalConfig (T : Toml α) (m : Migration) (files : Files) :
    Files × Except MigrateError MigrationReport :=
  match m.defaults.bind fromUtf8 with
  | none => (files, .error .defaultsUnreadable)
  | some defaultsRaw =>
      match T.fromStr defaultsRaw with
      | none => (files, .error .defaultsNotToml)
      | some defaults =>
          if m.localUnreadable then (files, .error .localUnreadable)
          else
            match files.loc with
            | none => writeLocal m files { added := seeded defaults.val } defaultsRaw
            | some bytes =>
                match fromUtf8 bytes with
                | none => (files, .error .localUnreadable)
                | some localRaw => migrateExisting T m files defaults.val localRaw

/-! ### Runs -/

/-- The files, and what the operator last saved as the local file. -/
structure World where
  files : Files
  saved : Option (List UInt8)

/-- What can happen. -/
inductive WorldEvent
  /-- The operator saves the local file, or removes it. -/
  | save (text : Option (List UInt8))
  | migrate (m : Migration)

/-- One event. -/
def worldStep (T : Toml α) (w : World) : WorldEvent → Option World
  | .save text => some ⟨{ w.files with loc := text }, text⟩
  | .migrate m => some { w with files := (migrateLocalConfig T m w.files).1 }

/-! ### What is claimed -/

/-- The setting at a path of a text. -/
def setting (T : Toml α) (text : List UInt8) (p : List String) : Option (Value α) :=
  ((fromUtf8 text).bind T.fromStr).bind fun v => v.val.find p

/-- **A text has the settings of another**, all that are no tables. -/
def Keeps (T : Toml α) (old new : List UInt8) : Prop :=
  ∀ p a, setting T old p = some (.leaf a) → setting T new p = some (.leaf a)

/-- **A migration that fails leaves the local file, and a backup is not replaced by a text that lacks a
setting of the operator.** -/
def Lossless (T : Toml α) (w : World) (e : WorldEvent) (w' : World) : Prop :=
  ∀ m, e = .migrate m →
    (∀ err, (migrateLocalConfig T m w.files).2 = .error err → w'.files.loc = w.files.loc) ∧
    ∀ old, w.files.backup = some old → w'.files.backup = some old ∨
      ∃ new, w'.files.backup = some new ∧ ∀ text, w.saved = some text → Keeps T text new

/-- The local file is not torn, nor a backup that is there. -/
def Intact (m : Migration) (files : Files) : Prop :=
  (∀ n, m.localWrite ≠ .torn n) ∧ (files.backup.isSome → ∀ n, m.backupWrite ≠ .torn n)

/-! ### An intact migration -/

variable {T : Toml α} {m : Migration} {files : Files} {old new : List UInt8} {w w' : World}
  {e : WorldEvent}

theorem Keeps.refl (T : Toml α) (text : List UInt8) : Keeps T text text := fun _ _ h => h

theorem Keeps.trans {mid : List UInt8} (h : Keeps T old mid) (h' : Keeps T mid new) : Keeps T old new :=
  fun p a hp => h' p a (h p a hp)

theorem setting_asBytes {text : String} {v : { v : Value α // v.Ordered }} (h : T.fromStr text = some v)
    (p : List String) : setting T (asBytes text) p = v.val.find p := by
  rw [setting, fromUtf8_asBytes, Option.bind_some, h, Option.bind_some]

/-- **The text of the merged table has the settings of the local text.** -/
theorem keeps_merged (hT : T.RoundTrips) {localRaw newContents : String} {defaults : Value α}
    {loc : { v : Value α // v.Ordered }} {table : Entries α} (hdefaults : defaults.Ordered)
    (hloc : T.fromStr localRaw = some loc) (htable : asTable loc.val = some table)
    (hnew : T.toStringPretty (.node (mergeTables defaults table "" ∅).1) = some newContents) :
    Keeps T (asBytes localRaw) (asBytes newContents) := by
  obtain ⟨loc, hordered⟩ := loc
  cases loc with
  | leaf a => cases htable
  | node es =>
      cases htable
      have hmerged : .node (mergeTables defaults table "" ∅).1 = fill defaults (.node table) :=
        mergeTables_fst hdefaults hordered
      rw [hmerged] at hnew
      have hread := hT ⟨_, hdefaults.fill hordered⟩ newContents hnew
      intro p a hp
      rw [setting_asBytes hloc] at hp
      rw [setting_asBytes hread]
      exact find_fill_leaf hdefaults hp

/-- What an intact migration does to the files. -/
structure Migrated (T : Toml α) (files : Files) (r : Files × Except MigrateError MigrationReport) :
    Prop where
  backup : files.backup = none ∨ r.1.backup = files.backup ∨
    ∃ raw, files.loc = some raw ∧ r.1.backup = some raw
  loc : r.1.loc = files.loc ∨ (∃ report, r.2 = .ok report) ∧
    ∃ new, r.1.loc = some new ∧ ∀ old, files.loc = some old → Keeps T old new

/-- A migration that ends before it writes. -/
theorem Migrated.unchanged (T : Toml α) (files : Files) (r : Except MigrateError MigrationReport) :
    Migrated T files (files, r) := ⟨.inr (.inl rfl), .inl rfl⟩

theorem Migrated.writeLocal (hlocal : ∀ n, m.localWrite ≠ .torn n) (files' : Files) {text : String}
    (hbackup : files.backup = none ∨ files'.backup = files.backup ∨
      ∃ raw, files.loc = some raw ∧ files'.backup = some raw)
    (hloc : files'.loc = files.loc) (hkeeps : ∀ old, files.loc = some old → Keeps T old (asBytes text))
    (report : MigrationReport) : Migrated T files (writeLocal m files' report text) := by
  cases hw : m.localWrite with
  | done =>
      have hdone : ConfigMigration.writeLocal m files' report text =
          ({ files' with loc := some (asBytes text) }, .ok report) := by
        simp only [ConfigMigration.writeLocal, hw, Write.leaves, if_true]
      rw [hdone]
      exact ⟨hbackup, .inr ⟨⟨report, rfl⟩, asBytes text, rfl, hkeeps⟩⟩
  | refused =>
      have hrefused : ConfigMigration.writeLocal m files' report text = (files', .error .write) := by
        simp only [ConfigMigration.writeLocal, hw, Write.leaves]
        rfl
      rw [hrefused]
      exact ⟨hbackup, .inl hloc⟩
  | torn n => exact absurd hw (hlocal n)

theorem Migrated.migrateExisting (hT : T.RoundTrips) (hintact : Intact m files) {defaults : Value α}
    (hdefaults : defaults.Ordered) {localRaw : String} (hraw : files.loc = some (asBytes localRaw)) :
    Migrated T files (migrateExisting T m files defaults localRaw) := by
  rw [ConfigMigration.migrateExisting]
  split
  · exact .unchanged T files _
  · next loc hloc =>
      split
      · exact .unchanged T files _
      · next table htable =>
          simp only
          split
          · exact .unchanged T files _
          · have hbackup : files.backup = none ∨
                m.backupWrite.leaves files.backup (asBytes localRaw) = files.backup ∨
                ∃ raw, files.loc = some raw ∧
                  m.backupWrite.leaves files.backup (asBytes localRaw) = some raw := by
              cases hw : m.backupWrite with
              | done => exact .inr (.inr ⟨_, hraw, rfl⟩)
              | refused => exact .inr (.inl rfl)
              | torn n =>
                  refine .inl (Option.not_isSome_iff_eq_none.1 fun hsome => ?_)
                  exact hintact.2 hsome n hw
            split
            · split
              · exact ⟨hbackup, .inl rfl⟩
              · next newContents hnew =>
                  refine .writeLocal hintact.1 { files with backup := _ } hbackup rfl (fun old hold => ?_) _
                  rw [hraw] at hold
                  cases hold
                  exact keeps_merged hT hdefaults hloc htable hnew
            · exact ⟨hbackup, .inl rfl⟩

/-- **What an intact migration does to the files.** -/
theorem migrate_spec (hT : T.RoundTrips) (hintact : Intact m files) :
    Migrated T files (migrateLocalConfig T m files) := by
  rw [migrateLocalConfig]
  split
  · exact .unchanged T files _
  · split
    · exact .unchanged T files _
    · next defaults hdefaults =>
        split
        · exact .unchanged T files _
        · split
          · next hnone =>
              refine .writeLocal hintact.1 files (.inr (.inl rfl)) rfl (fun old hold => ?_) _
              rw [hnone] at hold
              cases hold
          · next bytes hbytes =>
              split
              · exact .unchanged T files _
              · next localRaw hraw =>
                  refine .migrateExisting hT hintact defaults.property ?_
                  rw [hbytes, asBytes_of_fromUtf8 hraw]

/-! ### One event -/

/-- The local file has the settings of what the operator saved last. -/
def Holds (T : Toml α) (w : World) : Prop :=
  ∀ text, w.saved = some text → ∃ loc, w.files.loc = some loc ∧ Keeps T text loc

/-- **One event.** -/
theorem holds_worldStep (hT : T.RoundTrips) (hintact : ∀ m, e = .migrate m → Intact m w.files)
    (hw : Holds T w) (h : worldStep T w e = some w') : Holds T w' ∧ Lossless T w e w' := by
  cases e with
  | save text =>
      cases h
      refine ⟨fun saved hsaved => ⟨saved, hsaved, .refl T saved⟩, fun m hm => ?_⟩
      cases hm
  | migrate m =>
      cases h
      have hspec := migrate_spec hT (hintact m rfl)
      refine ⟨fun text htext => ?_, fun m' hm => ?_⟩
      · obtain ⟨loc, hloc, hkeeps⟩ := hw text htext
        rcases hspec.loc with hsame | ⟨-, new, hnew, hall⟩
        · exact ⟨loc, hsame.trans hloc, hkeeps⟩
        · exact ⟨new, hnew, hkeeps.trans (hall loc hloc)⟩
      · cases hm
        refine ⟨fun err herr => ?_, fun old hold => ?_⟩
        · rcases hspec.loc with hsame | ⟨⟨report, hok⟩, -⟩
          · exact hsame
          · rw [hok] at herr
            cases herr
        · rcases hspec.backup with hnone | hsame | ⟨raw, hraw, hbackup⟩
          · rw [hnone] at hold
            cases hold
          · exact .inl (hsame.trans hold)
          · refine .inr ⟨raw, hbackup, fun text htext => ?_⟩
            obtain ⟨loc, hloc, hkeeps⟩ := hw text htext
            rw [hraw] at hloc
            cases hloc
            exact hkeeps

/-! ### A TOML of few texts -/

theorem insert_second :
    insert "b" (.leaf 2 : Value ℕ) [("a", .leaf 1)] = [("a", .leaf 1), ("b", .leaf 2)] := by
  rw [KeyTree.insert, if_neg (by decide), if_neg (by decide), KeyTree.insert]

/-- TOML, as far as it is needed for texts with the settings `a = 1` and `b = 2`. -/
def smallToml : Toml ℕ where
  fromStr s :=
    if s = "" then some ⟨.node [], Doc.ordered_nil⟩
    else if s = "a = 1\n" then some ⟨.node [("a", .leaf 1)], (Doc.Ordered.leaf 1).singleton "a"⟩
    else if s = "b = 2\n" then some ⟨.node [("b", .leaf 2)], (Doc.Ordered.leaf 2).singleton "b"⟩
    else if s = "a = 1\nb = 2\n" then
      some ⟨.node [("a", .leaf 1), ("b", .leaf 2)],
        insert_second ▸ ((Doc.Ordered.leaf 1).singleton "a").insert (.leaf 2) "b"⟩
    else none
  toStringPretty
    | .node [("a", .leaf 1), ("b", .leaf 2)] => some "a = 1\nb = 2\n"
    | .node [("b", .leaf 2)] => some "b = 2\n"
    | _ => none

theorem smallToml_roundTrips : smallToml.RoundTrips := by
  rintro ⟨v, hv⟩ s h
  simp only [smallToml] at h
  split at h
  · cases h
    rfl
  · cases h
    rfl
  · cases h

/-! ### Every run of migrations -/

/-- **Every run of intact migrations**: one that fails leaves the local file as it was, and no backup is
replaced by a text that lacks a setting of what the operator saved last. -/
theorem lossless_occurs (hT : T.RoundTrips) (files : Files) (events : List WorldEvent)
    (hintact : ∀ w m, Occurs (worldStep T) ⟨files, files.loc⟩ events w (.migrate m) → Intact m w.files) :
    ∀ w e w', Occurs (worldStep T) ⟨files, files.loc⟩ events w e → worldStep T w e = some w' →
      Lossless T w e w' := by
  have hstart : Holds T ⟨files, files.loc⟩ := fun text htext => ⟨text, htext, .refl T text⟩
  intro w e w' hoccurs hstep
  have hw : Holds T w := by
    refine passes_induction (fun u a v hu hholds hv => ?_) hstart hoccurs.passes_before
    exact (holds_worldStep hT (fun m hm => hintact u m (hm ▸ hu)) hholds hv).1
  exact (holds_worldStep hT (fun m hm => hintact w m (hm ▸ hoccurs)) hw hstep).2

/-- A migration, a local file that the operator saves anew, and another migration: the backup has what
the operator saved. -/
theorem lossless_savedBetween :
    let migrate : WorldEvent := .migrate { defaults := some (asBytes "b = 2\n") }
    let files : Files := ⟨some (asBytes ""), none⟩
    let events : List WorldEvent := [migrate, .save (some (asBytes "a = 1\n")), migrate]
    (exec (worldStep smallToml) ⟨files, files.loc⟩ events).map (fun w => (w.files.loc, w.files.backup)) =
        some (some (asBytes "a = 1\nb = 2\n"), some (asBytes "a = 1\n")) ∧
    ∀ w e w', Occurs (worldStep smallToml) ⟨files, files.loc⟩ events w e →
      worldStep smallToml w e = some w' → Lossless smallToml w e w' := by
  intro migrate files events
  have hfirst : worldStep smallToml ⟨files, files.loc⟩ migrate =
      some ⟨⟨some (asBytes "b = 2\n"), some (asBytes "")⟩, some (asBytes "")⟩ := by
    simp only [worldStep, migrate, files, migrateLocalConfig, migrateExisting, Option.bind_some,
      fromUtf8_asBytes]
    rfl
  have hsecond : worldStep smallToml
      ⟨⟨some (asBytes "a = 1\n"), some (asBytes "")⟩, some (asBytes "a = 1\n")⟩ migrate =
      some ⟨⟨some (asBytes "a = 1\nb = 2\n"), some (asBytes "a = 1\n")⟩, some (asBytes "a = 1\n")⟩ := by
    simp only [worldStep, migrate, migrateLocalConfig, migrateExisting, Option.bind_some, fromUtf8_asBytes]
    rfl
  refine ⟨?_, lossless_occurs smallToml_roundTrips files events fun w m h => ?_⟩
  · rw [exec_cons, hfirst, Option.bind_some, exec_cons, worldStep, Option.bind_some, exec_cons, hsecond]
    rfl
  · have hm : m = { defaults := some (asBytes "b = 2\n") } := by
      simpa [events, migrate] using h.mem
    rw [hm]
    exact ⟨fun _ => Write.noConfusion, fun _ _ => Write.noConfusion⟩

/-- The migration of a local file with the setting `a = 1`, of which the last write is torn, and the
next one. -/
theorem not_lossless_tornWrite :
    let torn : Migration := { defaults := some (asBytes "b = 2\n"), localWrite := .torn 0 }
    let again : Migration := { defaults := some (asBytes "b = 2\n") }
    let w₀ : World := ⟨⟨some (asBytes "a = 1\n"), none⟩, some (asBytes "a = 1\n")⟩
    let w₁ : World := ⟨⟨some (asBytes ""), some (asBytes "a = 1\n")⟩, some (asBytes "a = 1\n")⟩
    let w₂ : World := ⟨⟨some (asBytes "b = 2\n"), some (asBytes "")⟩, some (asBytes "a = 1\n")⟩
    worldStep smallToml w₀ (.migrate torn) = some w₁ ∧ ¬ Lossless smallToml w₀ (.migrate torn) w₁ ∧
    worldStep smallToml w₁ (.migrate again) = some w₂ ∧ ¬ Lossless smallToml w₁ (.migrate again) w₂ := by
  intro torn again w₀ w₁ w₂
  have htorn : migrateLocalConfig smallToml torn w₀.files = (w₁.files, .error .write) := by
    simp only [migrateLocalConfig, migrateExisting, torn, w₀, Option.bind_some, fromUtf8_asBytes]
    rfl
  have hagain : (migrateLocalConfig smallToml again w₁.files).1 = w₂.files := by
    simp only [migrateLocalConfig, migrateExisting, again, w₁, Option.bind_some, fromUtf8_asBytes]
    rfl
  have ha : setting smallToml (asBytes "a = 1\n") ["a"] = some (.leaf 1) :=
    (setting_asBytes rfl ["a"]).trans rfl
  have hempty : setting smallToml (asBytes "") ["a"] = none := (setting_asBytes rfl ["a"]).trans rfl
  have hne : asBytes "a = 1\n" ≠ asBytes "" := fun h => by
    rw [h, hempty] at ha
    cases ha
  refine ⟨?_, fun h => ?_, ?_, fun h => ?_⟩
  · rw [worldStep, htorn]
  · have hkept := (h torn rfl).1 .write (by rw [htorn])
    exact hne (Option.some.inj hkept).symm
  · rw [worldStep, hagain]
  · rcases (h again rfl).2 _ rfl with hsame | ⟨new, hnew, hkeeps⟩
    · exact hne (Option.some.inj hsame).symm
    · cases hnew
      have hlost := hkeeps _ rfl ["a"] 1 ha
      rw [hempty] at hlost
      cases hlost

end ConfigMigration

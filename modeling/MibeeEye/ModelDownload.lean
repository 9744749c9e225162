/-
**Downloading a model.**

`download_file` of `crates/streaming/src/models.rs` tries the mirrors of a file one after the other.
What it receives is written to a file with the suffix `.part`, which stays when a mirror breaks off, and
is renamed to the final name when it has the declared size.  The digest is computed along the way, and
compared only when the file was downloaded from the beginning: what a mirror sends after `206` is
appended to what is there, and is not hashed.

The model is a step machine over any number of calls, with a step for each part of a call between its
awaits.  A name is bound to a file, and an open file is written whether it still has its name or not.
What the mirrors send, and which calls of the system fail, is part of the events; the digest is a
parameter.

Main definitions:

* `Models.PartFile`, `Models.Writer` — the name with the suffix, the files that had it, and open files;
* `Models.Job`, `Models.Phase`, `Models.Manager`, `Models.downloadStep` — the calls, and what they share;
* `Models.Renamed.HasSize`, `Models.Renamed.HasDigest` — what is to hold of a file that was renamed;
* `Models.Alone` — the steps at which no file is downloaded twice at once.

Main results:

* `Models.inv_downloadStep` — the invariant is kept by every such step;
* `Models.renamed_passes` — **what is renamed has its size, and its digest unless it was resumed**.
-/

import MibeeEye.StepMachine
import MibeeEye.Text
import Mathlib.Logic.Function.Basic

set_option relaxedAutoImplicit false
set_option autoImplicit false

namespace Models

open Machine

/-! ### Files -/

abbrev Bytes := List UInt8

/-- The name with the suffix `.part`: the file it is bound to, and what the files that had it hold. -/
structure PartFile where
  linked : Option ℕ := none
  contents : ℕ → Bytes := fun _ => []
  next : ℕ := 0

/-- A file that was opened for writing, at the end (`append`) or at an offset. -/
structure Writer where
  file : ℕ
  offset : Option ℕ
  deriving DecidableEq, Repr

/-- Bytes written at an offset. -/
def overwrite (old : Bytes) (offset : ℕ) (bytes : Bytes) : Bytes :=
  old.take offset ++ List.replicate (offset - old.length) 0 ++ bytes ++ old.drop (offset + bytes.length)

namespace PartFile

/-- What is there before the first call. -/
def ofBytes : Option Bytes → PartFile
  | none => {}
  | some bytes => { linked := some 0, contents := Function.update (fun _ => []) 0 bytes, next := 1 }

/-- `metadata(..).map(|m| m.len()).unwrap_or(0)` -/
def len (p : PartFile) : ℕ := (p.linked.map fun i => (p.contents i).length).getD 0

/-- `create(true).write(true).truncate(true)` -/
def create (p : PartFile) : PartFile × Writer :=
  match p.linked with
  | some i => ({ p with contents := Function.update p.contents i [] }, ⟨i, some 0⟩)
  | none =>
      ({ linked := some p.next, contents := Function.update p.contents p.next [], next := p.next + 1 },
        ⟨p.next, some 0⟩)

/-- `remove_file` -/
def remove (p : PartFile) : PartFile := { p with linked := none }

/-- `write_all` -/
def write (p : PartFile) (w : Writer) (bytes : Bytes) : PartFile :=
  let old := p.contents w.file
  let new := match w.offset with
    | none => old ++ bytes
    | some offset => overwrite old offset bytes
  { p with contents := Function.update p.contents w.file new }

end PartFile

/-- The file after a write. -/
def Writer.advance (w : Writer) (bytes : Bytes) : Writer :=
  { w with offset := w.offset.map (· + bytes.length) }

/-! ### Calls -/

/-- `CatalogFile` -/
structure CatalogFile where
  path : String
  size : ℕ
  sha256 : Option String
  deriving DecidableEq, Repr

/-- What a call keeps: the file, the final name, the mirrors that are left, and the flag `cancel`. -/
structure Job where
  file : CatalogFile
  target : String
  mirrors : ℕ
  canceled : Bool := false
  deriving DecidableEq, Repr

/-- What a call waits for. -/
inductive Phase
  /-- The answer to a request for what is missing after `got` bytes. -/
  | requesting (got : ℕ)
  /-- The next chunk; `hashed` is what the running digest has seen. -/
  | streaming (got : ℕ) (fresh : Bool) (hashed : Bytes) (writer : Writer)
  deriving DecidableEq, Repr

/-- A call of `download_file`. -/
inductive Task
  | unused
  | running (job : Job) (phase : Phase)
  /-- `Ok` or `Err` -/
  | ended (ok : Bool)
  deriving DecidableEq, Repr

/-- The final name of the file that a call is downloading. -/
def Task.target : Task → Option String
  | running job _ => some job.target
  | unused | ended _ => none

theorem target_of_running {task : Task} {job : Job} {phase : Phase} (h : task = .running job phase) :
    task.target = some job.target := by
  rw [h]
  rfl

/-- A file that was given its final name: whether it was downloaded from the beginning, and what it
held. -/
structure Renamed where
  file : CatalogFile
  fresh : Bool
  bytes : Bytes
  deriving DecidableEq, Repr

/-- The files, by their final name, and the calls; beside them what was renamed. -/
structure Manager where
  parts : String → PartFile
  next : ℕ := 0
  tasks : ℕ → Task := fun _ => .unused
  renamed : List Renamed := []

/-- Before the first call, with what is left from earlier. -/
def Manager.start (parts : String → Option Bytes) : Manager :=
  { parts := fun target => PartFile.ofBytes (parts target) }

/-- What comes next from a mirror. -/
inductive Chunk
  | data (bytes : Bytes)
  | bodyError
  /-- Writing `bytes` fails after the first `written` of them. -/
  | writeError (bytes : Bytes) (written : ℕ)
  deriving DecidableEq, Repr

/-- What can happen. -/
inductive DownloadEvent
  /-- A call is made, for a file with so many mirrors. -/
  | start (file : CatalogFile) (target : String) (mirrors : ℕ)
  | cancel (n : ℕ)
  /-- The answer for call `n`: its status, if there is one, and whether the file can be opened. -/
  | response (n : ℕ) (status : Option ℕ) (opens : Bool)
  | chunk (n : ℕ) (chunk : Chunk)
  /-- The body is complete; does `remove_file` or `rename` succeed, where it is called? -/
  | complete (n : ℕ) (removes renames : Bool)
  deriving DecidableEq, Repr

namespace Manager

def setTask (s : Manager) (n : ℕ) (task : Task) : Manager :=
  { s with tasks := Function.update s.tasks n task }

def setPart (s : Manager) (target : String) (part : PartFile) : Manager :=
  { s with parts := Function.update s.parts target part }

/-- The task that asks the next mirror, or gives up. -/
def retry (s : Manager) (job : Job) : Task :=
  match job.mirrors with
  | 0 => .ended false
  | mirrors + 1 => .running { job with mirrors } (.requesting (s.parts job.target).len)

/-- Call `n` goes on with the next mirror. -/
def nextMirror (s : Manager) (n : ℕ) (job : Job) : Manager := s.setTask n (s.retry job)

/-- An answer with this status, of a mirror that was asked for what is missing after `got` bytes. -/
def respond (s : Manager) (n : ℕ) (job : Job) (got status : ℕ) (opens : Bool) : Manager :=
  let resume := decide (0 < got) && status == 206
  let part := s.parts job.target
  if !opens then s.nextMirror n job
  else if resume then
    match part.linked with
    | some i => s.setTask n (.running job (.streaming got false [] ⟨i, none⟩))
    | none => s.nextMirror n job
  else
    (s.setPart job.target part.create.1).setTask n
      (.running job (.streaming 0 true [] part.create.2))

/-- `remove_file(&part)`, and on to the next mirror. -/
def discard (s : Manager) (n : ℕ) (job : Job) (removes : Bool) : Manager :=
  let part := s.parts job.target
  (s.setPart job.target (if removes then part.remove else part)).nextMirror n job

/-- `rename(&part, target)` -/
def rename (s : Manager) (n : ℕ) (job : Job) (fresh renames : Bool) : Manager :=
  let part := s.parts job.target
  match part.linked, renames with
  | some i, true =>
      { (s.setPart job.target part.remove).setTask n (.ended true) with
        renamed := ⟨job.file, fresh, part.contents i⟩ :: s.renamed }
  | _, _ => s.nextMirror n job

end Manager

/-- The hash check: made for a download from the beginning, if a digest is declared. -/
def digestAccepted (sha256 : Bytes → String) (file : CatalogFile) (fresh : Bool) (hashed : Bytes) :
    Bool :=
  match fresh, file.sha256 with
  | true, some want => Text.eqIgnoreAsciiCase (sha256 hashed) want
  | _, _ => true

/-- One step. -/
def downloadStep (sha256 : Bytes → String) (s : Manager) : DownloadEvent → Option Manager
  | .start file target mirrors =>
      some { s.setTask s.next (s.retry { file, target, mirrors }) with next := s.next + 1 }
  | .cancel n =>
      match s.tasks n with
      | .running job phase => some (s.setTask n (.running { job with canceled := true } phase))
      | _ => none
  | .response n status opens =>
      match s.tasks n, status with
      | .running job (.requesting got), some status =>
          if 200 ≤ status ∧ status < 300 then some (s.respond n job got status opens)
          else some (s.nextMirror n job)
      | .running job (.requesting _), none => some (s.nextMirror n job)
      | _, _ => none
  | .chunk n chunk =>
      match s.tasks n with
      | .running job (.streaming got fresh hashed writer) =>
          if job.canceled then some (s.setTask n (.ended false))
          else
            match chunk with
            | .bodyError => some (s.nextMirror n job)
            | .writeError bytes written =>
                some ((s.setPart job.target
                  ((s.parts job.target).write writer (bytes.take written))).nextMirror n job)
            | .data bytes =>
                some ((s.setPart job.target ((s.parts job.target).write writer bytes)).setTask n
                  (.running job (.streaming (got + bytes.length) fresh
                    (if fresh then hashed ++ bytes else hashed) (writer.advance bytes))))
      | _ => none
  | .complete n removes renames =>
      match s.tasks n with
      | .running job (.streaming got fresh hashed _) =>
          if got ≠ job.file.size then some (s.discard n job removes)
          else if digestAccepted sha256 job.file fresh hashed then
            some (s.rename n job fresh renames)
          else some (s.discard n job removes)
      | _ => none

/-! ### What is to hold -/

/-- The file has the declared size. -/
def Renamed.HasSize (r : Renamed) : Prop := r.bytes.length = r.file.size

/-- The file has the declared digest, if one is declared. -/
def Renamed.HasDigest (sha256 : Bytes → String) (r : Renamed) : Prop :=
  ∀ want ∈ r.file.sha256, Text.eqIgnoreAsciiCase (sha256 r.bytes) want = true

/-- **Model download integrity**: every file that was renamed has its size and its digest. -/
def Intact (sha256 : Bytes → String) (s : Manager) : Prop :=
  ∀ r ∈ s.renamed, r.HasSize ∧ r.HasDigest sha256

/-- **The steps at which no file is downloaded twice at once.** -/
def Alone (s : Manager) : DownloadEvent → Prop
  | .start _ target _ => ∀ k < s.next, (s.tasks k).target ≠ some target
  | .cancel _ | .response _ _ _ | .chunk _ _ | .complete _ _ _ => True

instance (s : Manager) : DecidablePred (Alone s)
  | .start _ target _ => inferInstanceAs (Decidable (∀ k < s.next, (s.tasks k).target ≠ some target))
  | .cancel _ | .response _ _ _ | .chunk _ _ | .complete _ _ _ => inferInstanceAs (Decidable True)

/-! ### The invariant -/

/-- A call that waits knows its file: it has counted its bytes, and hashed them if it began at the
beginning. -/
def Phase.Knows (p : PartFile) : Phase → Prop
  | requesting got => got = p.len
  | streaming got fresh hashed writer => p.linked = some writer.file ∧
      (p.contents writer.file).length = got ∧
      (if fresh then p.contents writer.file = hashed ∧ writer.offset = some got
        else writer.offset = none)

/-- What the steps keep. -/
structure Inv (sha256 : Bytes → String) (s : Manager) : Prop where
  unused : ∀ k, s.next ≤ k → s.tasks k = .unused
  /-- No file is downloaded twice at once. -/
  distinct : ∀ j k target, (s.tasks j).target = some target → (s.tasks k).target = some target → j = k
  knows : ∀ k job phase, s.tasks k = .running job phase → phase.Knows (s.parts job.target)
  renamed : ∀ r ∈ s.renamed, r.HasSize ∧ (r.fresh = true → r.HasDigest sha256)

variable {sha256 : Bytes → String}

theorem inv_start (parts : String → Option Bytes) : Inv sha256 (Manager.start parts) := by
  refine ⟨fun _ _ => rfl, ?_, ?_, ?_⟩
  · intro j k target h
    cases h
  · intro k job phase h
    cases h
  · intro r hr
    cases hr

/-- **Call `n` goes on**, with its own file only. -/
theorem inv_of_task {s t : Manager} {n : ℕ} {target : String} {task : Task} {part : PartFile}
    (hs : Inv sha256 s) (hn : (s.tasks n).target = some target)
    (htasks : t.tasks = Function.update s.tasks n task)
    (hparts : t.parts = Function.update s.parts target part) (hnext : t.next = s.next)
    (htask : ∀ job phase, task = .running job phase → job.target = target ∧ phase.Knows part)
    (hrenamed : ∀ r ∈ t.renamed, r.HasSize ∧ (r.fresh = true → r.HasDigest sha256)) :
    Inv sha256 t := by
  have hlt : n < s.next := by
    by_contra h
    rw [hs.unused n (by omega)] at hn
    cases hn
  have hold : ∀ k, k ≠ n → t.tasks k = s.tasks k := by
    intro k hk
    rw [htasks, Function.update_of_ne hk]
  -- the new task has the target of the old one
  have htarget : ∀ k x, (t.tasks k).target = some x → (s.tasks k).target = some x := by
    intro k x hx
    by_cases hk : k = n
    · subst hk
      rw [htasks, Function.update_self] at hx
      cases task with
      | running job phase =>
          cases hx
          rw [hn, (htask job phase rfl).1]
      | unused => cases hx
      | ended ok => cases hx
    · rwa [hold k hk] at hx
  refine ⟨?_, ?_, ?_, hrenamed⟩
  · intro k hk
    rw [hold k (by omega)]
    exact hs.unused k (by omega)
  · exact fun j k x hj hk => hs.distinct j k x (htarget j x hj) (htarget k x hk)
  · intro k job phase hrunning
    by_cases hk : k = n
    · subst hk
      rw [htasks, Function.update_self] at hrunning
      obtain ⟨hx, hknows⟩ := htask job phase hrunning
      rw [hparts, hx, Function.update_self]
      exact hknows
    · rw [hold k hk] at hrunning
      have hne : job.target ≠ target := by
        intro h
        refine hk (hs.distinct k n target ?_ hn)
        rw [hrunning, ← h]
        rfl
      rw [hparts, Function.update_of_ne hne]
      exact hs.knows k job phase hrunning

/-! ### What a call does to its file -/

theorem write_append {p : PartFile} {w : Writer} {bytes : Bytes} (h : w.offset = none) :
    (p.write w bytes).contents w.file = p.contents w.file ++ bytes := by
  simp [PartFile.write, h]

theorem write_at_end {p : PartFile} {w : Writer} {bytes : Bytes}
    (h : w.offset = some (p.contents w.file).length) :
    (p.write w bytes).contents w.file = p.contents w.file ++ bytes := by
  simp [PartFile.write, h, overwrite]

/-- A call that counts its bytes writes behind them. -/
theorem contents_write {p : PartFile} {got : ℕ} {fresh : Bool} {hashed bytes : Bytes} {w : Writer}
    (h : (Phase.streaming got fresh hashed w).Knows p) :
    (p.write w bytes).contents w.file = p.contents w.file ++ bytes := by
  obtain ⟨-, hlength, hfresh⟩ := h
  cases fresh with
  | true => exact write_at_end (by rw [hfresh.2, hlength])
  | false => exact write_append hfresh

/-- A chunk is written, counted and hashed. -/
theorem knows_write {p : PartFile} {got : ℕ} {fresh : Bool} {hashed bytes : Bytes} {w : Writer}
    (h : (Phase.streaming got fresh hashed w).Knows p) :
    (Phase.streaming (got + bytes.length) fresh (if fresh then hashed ++ bytes else hashed)
      (w.advance bytes)).Knows (p.write w bytes) := by
  have hcontents : (p.write w bytes).contents w.file = p.contents w.file ++ bytes := contents_write h
  obtain ⟨hlinked, hlength, hfresh⟩ := h
  refine ⟨hlinked, ?_, ?_⟩
  · change ((p.write w bytes).contents w.file).length = _
    rw [hcontents, List.length_append, hlength]
  · cases fresh with
    | true =>
        refine ⟨?_, ?_⟩
        · change (p.write w bytes).contents w.file = _
          rw [hcontents, hfresh.1]
          rfl
        · simp [Writer.advance, hfresh.2]
    | false => simpa [Writer.advance] using hfresh

/-- A download from the beginning begins. -/
theorem knows_create (p : PartFile) : (Phase.streaming 0 true [] p.create.2).Knows p.create.1 := by
  unfold PartFile.create
  cases p.linked with
  | some i => exact ⟨rfl, by simp, by simp⟩
  | none => exact ⟨rfl, by simp, by simp⟩

/-- A resumed download begins. -/
theorem knows_resume {p : PartFile} {got i : ℕ} (h : (Phase.requesting got).Knows p)
    (hlinked : p.linked = some i) : (Phase.streaming got false [] ⟨i, none⟩).Knows p := by
  refine ⟨hlinked, ?_, rfl⟩
  rw [Phase.Knows, PartFile.len, hlinked] at h
  exact h.symm

/-! ### Every step -/

/-- The task that asks the next mirror has read the length of the file. -/
theorem knows_retry {s : Manager} {job : Job} {job' : Job} {phase : Phase}
    (h : s.retry job = .running job' phase) :
    job'.target = job.target ∧ phase.Knows (s.parts job.target) := by
  unfold Manager.retry at h
  split at h
  · cases h
  · cases h
    exact ⟨rfl, rfl⟩

/-- Call `n` leaves its file as `part`, and asks the next mirror. -/
theorem inv_nextMirror {s : Manager} (hs : Inv sha256 s) {n : ℕ} {job : Job}
    (hn : (s.tasks n).target = some job.target) (part : PartFile) :
    Inv sha256 ((s.setPart job.target part).nextMirror n job) := by
  refine inv_of_task hs hn rfl rfl rfl ?_ hs.renamed
  intro job' phase h
  obtain ⟨htarget, hknows⟩ := knows_retry h
  refine ⟨htarget, ?_⟩
  simpa [Manager.setPart] using hknows

/-- The file as it is. -/
theorem setPart_self (s : Manager) (target : String) : s.setPart target (s.parts target) = s := by
  rw [Manager.setPart, Function.update_eq_self]

/-- Call `n` asks the next mirror. -/
theorem inv_nextMirror_self {s : Manager} (hs : Inv sha256 s) {n : ℕ} {job : Job}
    (hn : (s.tasks n).target = some job.target) : Inv sha256 (s.nextMirror n job) := by
  have h := inv_nextMirror hs hn (s.parts job.target)
  rwa [setPart_self] at h

/-- Call `n` changes, and not its file. -/
theorem inv_setTask {s : Manager} (hs : Inv sha256 s) {n : ℕ} {target : String} {task : Task}
    (hn : (s.tasks n).target = some target)
    (htask : ∀ job phase, task = .running job phase →
      job.target = target ∧ phase.Knows (s.parts target)) : Inv sha256 (s.setTask n task) :=
  inv_of_task hs hn rfl (Function.update_eq_self target s.parts).symm rfl htask hs.renamed

/-- **A mirror answers.** -/
theorem inv_respond {s : Manager} (hs : Inv sha256 s) {n got status : ℕ} {job : Job} {opens : Bool}
    (hn : s.tasks n = .running job (.requesting got)) :
    Inv sha256 (s.respond n job got status opens) := by
  have htarget := target_of_running hn
  unfold Manager.respond
  dsimp only
  split
  · exact inv_nextMirror_self hs htarget
  · split
    · split
      · rename_i i hlinked
        refine inv_setTask hs htarget ?_
        rintro job' phase ⟨⟩
        exact ⟨rfl, knows_resume (hs.knows n job _ hn) hlinked⟩
      · exact inv_nextMirror_self hs htarget
    · refine inv_of_task hs htarget rfl rfl rfl ?_ hs.renamed
      rintro job' phase ⟨⟩
      exact ⟨rfl, knows_create _⟩

/-- **A chunk arrives, or does not.** -/
theorem inv_chunk {s t : Manager} {n : ℕ} {chunk : Chunk} (hs : Inv sha256 s)
    (h : downloadStep sha256 s (.chunk n chunk) = some t) : Inv sha256 t := by
  unfold downloadStep at h
  dsimp only at h
  split at h
  · rename_i job got fresh hashed writer hn
    have htarget := target_of_running hn
    split at h
    · cases h
      refine inv_setTask hs htarget ?_
      rintro job' phase ⟨⟩
    · cases chunk with
      | bodyError =>
          cases h
          exact inv_nextMirror_self hs htarget
      | writeError bytes written =>
          cases h
          exact inv_nextMirror hs htarget _
      | data bytes =>
          cases h
          refine inv_of_task hs htarget rfl rfl rfl ?_ hs.renamed
          rintro job' phase ⟨⟩
          exact ⟨rfl, knows_write (hs.knows n job _ hn)⟩
  · cases h

/-- What the hash check has compared. -/
theorem eq_of_digestAccepted {file : CatalogFile} {hashed : Bytes} {want : String}
    (h : digestAccepted sha256 file true hashed = true) (hwant : want ∈ file.sha256) :
    Text.eqIgnoreAsciiCase (sha256 hashed) want = true := by
  unfold digestAccepted at h
  rw [Option.mem_def.1 hwant] at h
  exact h

/-- **The file is renamed**: it has its size, and its digest if it was hashed. -/
theorem inv_rename {s : Manager} (hs : Inv sha256 s) {n got : ℕ} {job : Job} {fresh renames : Bool}
    {hashed : Bytes} {writer : Writer}
    (hn : s.tasks n = .running job (.streaming got fresh hashed writer))
    (hsize : got = job.file.size) (hdigest : digestAccepted sha256 job.file fresh hashed = true) :
    Inv sha256 (s.rename n job fresh renames) := by
  have htarget := target_of_running hn
  obtain ⟨hlinked, hlength, hfresh⟩ := hs.knows n job _ hn
  unfold Manager.rename
  dsimp only
  split
  · rename_i i hi
    obtain rfl : i = writer.file := Option.some.inj (hi.symm.trans hlinked)
    refine inv_of_task hs htarget rfl rfl rfl ?_ ?_
    · rintro job' phase ⟨⟩
    · intro r hr
      rcases List.mem_cons.1 hr with rfl | hr
      · refine ⟨hlength.trans hsize, ?_⟩
        rintro rfl want hwant
        rw [if_pos rfl] at hfresh
        dsimp only
        rw [hfresh.1]
        exact eq_of_digestAccepted hdigest hwant
      · exact hs.renamed r hr
  · exact inv_nextMirror_self hs htarget

/-- **The body is complete.** -/
theorem inv_complete {s t : Manager} {n : ℕ} {removes renames : Bool} (hs : Inv sha256 s)
    (h : downloadStep sha256 s (.complete n removes renames) = some t) : Inv sha256 t := by
  unfold downloadStep at h
  dsimp only at h
  split at h
  · rename_i job got fresh hashed writer hn
    have htarget := target_of_running hn
    split at h
    · cases h
      exact inv_nextMirror hs htarget _
    · rename_i hsize
      split at h
      · rename_i hdigest
        cases h
        exact inv_rename hs hn (not_not.1 hsize) hdigest
      · cases h
        exact inv_nextMirror hs htarget _
  · cases h

/-- **A call is made**, for a file that no other call is downloading. -/
theorem inv_started {s : Manager} (hs : Inv sha256 s) {file : CatalogFile} {target : String}
    {mirrors : ℕ} (halone : Alone s (.start file target mirrors)) :
    Inv sha256 { s.setTask s.next (s.retry { file, target, mirrors }) with next := s.next + 1 } := by
  have hunused : s.tasks s.next = .unused := hs.unused _ (Nat.le_refl _)
  have hfree : ∀ k, (s.tasks k).target ≠ some target := by
    intro k
    by_cases hk : k < s.next
    · exact halone k hk
    · rw [hs.unused k (by omega)]
      simp [Task.target]
  -- the call has no other target than this one
  have hnew : ∀ x, (s.retry { file, target, mirrors }).target = some x → x = target := by
    intro x hx
    cases hretry : s.retry { file, target, mirrors } with
    | running job phase =>
        rw [hretry] at hx
        cases hx
        exact (knows_retry hretry).1
    | unused =>
        rw [hretry] at hx
        cases hx
    | ended ok =>
        rw [hretry] at hx
        cases hx
  refine ⟨fresh_begin hs.unused _, ?_, ?_, hs.renamed⟩
  · intro j k x hj hk
    rcases update_cases (p := fun t => Task.target t = some x) hj with ⟨hj', hj⟩ | ⟨-, hj⟩
    · rcases update_cases (p := fun t => Task.target t = some x) hk with ⟨hk', -⟩ | ⟨-, hk⟩
      · rw [hj', hk']
      · rw [hnew x hj] at hk
        exact absurd hk (hfree k)
    · rcases update_cases (p := fun t => Task.target t = some x) hk with ⟨-, hk⟩ | ⟨-, hk⟩
      · rw [hnew x hk] at hj
        exact absurd hj (hfree j)
      · exact hs.distinct j k x hj hk
  · intro k job phase h
    rcases update_cases (p := (· = Task.running job phase)) h with ⟨-, h⟩ | ⟨-, h⟩
    · obtain ⟨htarget, hknows⟩ := knows_retry h
      dsimp only [Manager.setTask]
      rw [htarget]
      exact hknows
    · exact hs.knows k job phase h

/-- **Every step at which no file is downloaded twice at once keeps the invariant.** -/
theorem inv_downloadStep {s t : Manager} {e : DownloadEvent} (hs : Inv sha256 s) (halone : Alone s e)
    (h : downloadStep sha256 s e = some t) : Inv sha256 t := by
  cases e with
  | start file target mirrors =>
      cases h
      exact inv_started hs halone
  | cancel n =>
      unfold downloadStep at h
      dsimp only at h
      split at h
      · rename_i job phase hn
        cases h
        refine inv_setTask hs (by rw [hn]; rfl) ?_
        rintro job' phase' ⟨⟩
        exact ⟨rfl, hs.knows n job phase hn⟩
      · cases h
  | response n status opens =>
      unfold downloadStep at h
      dsimp only at h
      split at h
      · rename_i job got status hn
        split at h
        · cases h
          exact inv_respond hs hn
        · cases h
          exact inv_nextMirror_self hs (by rw [hn]; rfl)
      · rename_i job got hn
        cases h
        exact inv_nextMirror_self hs (by rw [hn]; rfl)
      · cases h
  | chunk n chunk => exact inv_chunk hs h
  | complete n removes renames => exact inv_complete hs h

/-! ### Every run -/

/-- **What is renamed has its size, and its digest unless it was resumed**: in a run in which no file is
downloaded twice at once, whatever was there before, whatever the mirrors send, and whenever they break
off or a call is cancelled. -/
theorem renamed_passes {parts : String → Option Bytes} {s : Manager} {es : List DownloadEvent}
    (halone : ∀ u e, Occurs (downloadStep sha256) (Manager.start parts) es u e → Alone u e)
    (h : Passes (downloadStep sha256) (Manager.start parts) es s) :
    ∀ r ∈ s.renamed, r.HasSize ∧ (r.fresh = true → r.HasDigest sha256) :=
  (passes_induction (fun u e _ hu hs => inv_downloadStep hs (halone u e hu)) (inv_start parts)
    h).renamed

/-- The digests of the files below. -/
def knownDigest (bytes : Bytes) : String :=
  if bytes = [1, 2, 3, 4] then "9f64a747e1b97f131fabb6b447296c9b6f0201e79fb3c5356e6c77e89b6a806a"
  else if bytes = [1, 1, 3, 4] then
    "2099159be725a7b489a527db07c31e60616d4b0a1c7bd7ae81ab615d5321ab24"
  else if bytes = [0, 0, 3, 4] then
    "4b9d8492a96ca776df670986c65557243a4800ad39bda06cbeabe9d3d609b07c"
  else ""

/-- A file of four bytes, 1 to 4, with its digest. -/
def fourBytes : CatalogFile :=
  ⟨"model.bin", 4, some "9F64A747E1B97F131FABB6B447296C9B6F0201E79FB3C5356E6C77E89B6A806A"⟩

/-- Two files are downloaded at once.  For the first, one mirror breaks off, the next one does not know
ranges and sends the file from the beginning; the second is resumed. -/
def twoFiles : List DownloadEvent :=
  [.start fourBytes "a/model.bin" 2, .start ⟨"tokens.txt", 3, none⟩ "b/tokens.txt" 1,
    .response 0 (some 200) true, .chunk 0 (.data [1, 2]), .response 1 (some 206) true,
    .chunk 0 .bodyError, .chunk 1 (.data [9]), .response 0 (some 200) true,
    .chunk 0 (.data [1, 2]), .complete 1 true true, .chunk 0 (.data [3, 4]), .complete 0 true true]

/-- What is left of the second. -/
def twoLeft : String → Option Bytes := fun target => if target = "b/tokens.txt" then some [7, 8] else none

theorem renamed_twoFiles :
    ∃ s, Passes (downloadStep knownDigest) (Manager.start twoLeft) twoFiles s ∧
      s.renamed = [⟨fourBytes, true, [1, 2, 3, 4]⟩, ⟨⟨"tokens.txt", 3, none⟩, false, [7, 8, 9]⟩] ∧
      ∀ r ∈ s.renamed, r.HasSize ∧ (r.fresh = true → r.HasDigest knownDigest) := by
  have hend : (exec (downloadStep knownDigest) (Manager.start twoLeft) twoFiles).map Manager.renamed
      = some [⟨fourBytes, true, [1, 2, 3, 4]⟩, ⟨⟨"tokens.txt", 3, none⟩, false, [7, 8, 9]⟩] := by
    decide
  obtain ⟨s, hs, hrenamed⟩ := Option.map_eq_some_iff.1 hend
  refine ⟨s, ⟨_, List.prefix_rfl, hs⟩, hrenamed, ?_⟩
  refine renamed_passes ?_ ⟨_, List.prefix_rfl, hs⟩
  intro u e hu
  exact of_decide_eq_true (forall_occurs_of_along (p := fun u e => decide (Alone u e))
    (by decide) u e hu)

/-- A damaged beginning is there, and the mirror sends the rest. -/
def resumedDownload : List DownloadEvent :=
  [.start fourBytes "a/model.bin" 1, .response 0 (some 206) true, .chunk 0 (.data [3, 4]),
    .complete 0 true true]

/-- The same file is downloaded twice at once: the second call empties what the first has written. -/
def downloadedTwice : List DownloadEvent :=
  [.start fourBytes "a/model.bin" 1, .response 0 (some 200) true, .chunk 0 (.data [1, 2]),
    .start fourBytes "a/model.bin" 1, .response 1 (some 200) true, .chunk 0 (.data [3, 4]),
    .complete 0 true true]

/-- A file without its digest was renamed. -/
theorem not_intact_of_renamed {s : Manager} {r : Renamed} (hr : r ∈ s.renamed) {want : String}
    (hwant : want ∈ r.file.sha256) (hne : Text.eqIgnoreAsciiCase (sha256 r.bytes) want = false) :
    ¬ Intact sha256 s := by
  intro h
  have hdigest := (h r hr).2 want hwant
  rw [hne] at hdigest
  cases hdigest

/-- **A file with another digest is renamed**: one that was resumed, and not hashed; and one that was
downloaded from the beginning, and emptied meanwhile by another call. -/
theorem not_intact_resumed_or_shared :
    (∃ s, Passes (downloadStep knownDigest) (Manager.start fun _ => some [1, 1]) resumedDownload s ∧
      ⟨fourBytes, false, [1, 1, 3, 4]⟩ ∈ s.renamed ∧ ¬ Intact knownDigest s) ∧
    ∃ s, Passes (downloadStep knownDigest) (Manager.start fun _ => none) downloadedTwice s ∧
      ⟨fourBytes, true, [0, 0, 3, 4]⟩ ∈ s.renamed ∧ ¬ Intact knownDigest s := by
  constructor
  · have hend : (exec (downloadStep knownDigest) (Manager.start fun _ => some [1, 1])
        resumedDownload).map Manager.renamed = some [⟨fourBytes, false, [1, 1, 3, 4]⟩] := by
      decide
    obtain ⟨s, hs, hrenamed⟩ := Option.map_eq_some_iff.1 hend
    have hmem : ⟨fourBytes, false, [1, 1, 3, 4]⟩ ∈ s.renamed := by
      rw [hrenamed]
      exact List.mem_cons_self
    exact ⟨s, ⟨_, List.prefix_rfl, hs⟩, hmem, not_intact_of_renamed hmem rfl (by decide)⟩
  · have hend : (exec (downloadStep knownDigest) (Manager.start fun _ => none)
        downloadedTwice).map Manager.renamed = some [⟨fourBytes, true, [0, 0, 3, 4]⟩] := by
      decide
    obtain ⟨s, hs, hrenamed⟩ := Option.map_eq_some_iff.1 hend
    have hmem : ⟨fourBytes, true, [0, 0, 3, 4]⟩ ∈ s.renamed := by
      rw [hrenamed]
      exact List.mem_cons_self
    exact ⟨s, ⟨_, List.prefix_rfl, hs⟩, hmem, not_intact_of_renamed hmem rfl (by decide)⟩

end Models

/-
**Completing an interrupted download.**

What is left under the name with the suffix `.part` is resumed by the next call of `download_file`: its
length alone decides what is asked for.  This module follows one call against mirrors that serve the
correct file: the whole of it, the rest of it with `206` where a rest is asked for, and `416` where nothing
is left to ask for.

Main definitions:

* `Models.Good` — the events of a call that such mirrors cause, without any failure here;
* `Models.Completes` — the call can always be finished, and ends with the correct file;
* `Models.Stage` — what a call knows, by what was left before it.

Main results:

* `Models.stage_step` — every such event keeps that;
* `Models.completes_iff` — **a download is completed exactly where nothing is left, or a proper beginning of
  the correct file**.
-/

import MibeeEye.ModelDownload

set_option relaxedAutoImplicit false
set_option autoImplicit false

namespace Models

open Machine

/-! ### Mirrors that serve a file -/

/-- The status for a request of what is behind `got` bytes. -/
def serveStatus (content : Bytes) (got : ℕ) : ℕ :=
  if got = 0 then 200 else if got < content.length then 206 else 416

/-- What happens to call `n` where its mirrors serve `content` and nothing fails: an answer, some more
bytes of what is asked for, and the end of it. -/
def Good (content : Bytes) (n : ℕ) (s : Manager) : DownloadEvent → Prop
  | .response k status opens => k = n ∧ opens = true ∧
      ∃ job got, s.tasks n = .running job (.requesting got) ∧ status = some (serveStatus content got)
  | .chunk k (.data bytes) => k = n ∧
      ∃ job got fresh hashed writer, s.tasks n = .running job (.streaming got fresh hashed writer) ∧
        bytes <+: content.drop got
  | .complete k removes renames => k = n ∧ removes = true ∧ renames = true ∧
      ∃ job fresh hashed writer,
        s.tasks n = .running job (.streaming content.length fresh hashed writer)
  | .start _ _ _ | .cancel _ | .chunk _ .bodyError | .chunk _ (.writeError _ _) => False

/-- What good mirrors can cause, by what the call waits for. -/
theorem good_iff {content : Bytes} {n : ℕ} {s : Manager} {e : DownloadEvent} : Good content n s e ↔
    (∃ job got, s.tasks n = .running job (.requesting got) ∧
      e = .response n (some (serveStatus content got)) true) ∨
    (∃ job got fresh hashed writer bytes,
      s.tasks n = .running job (.streaming got fresh hashed writer) ∧ bytes <+: content.drop got ∧
      e = .chunk n (.data bytes)) ∨
    (∃ job fresh hashed writer,
      s.tasks n = .running job (.streaming content.length fresh hashed writer) ∧
      e = .complete n true true) := by
  constructor
  · intro h
    cases e with
    | response k status opens =>
        obtain ⟨rfl, rfl, job, got, ht, rfl⟩ := h
        exact .inl ⟨job, got, ht, rfl⟩
    | chunk k c =>
        cases c with
        | data bytes =>
            obtain ⟨rfl, job, got, fresh, hashed, writer, ht, hbytes⟩ := h
            exact .inr (.inl ⟨job, got, fresh, hashed, writer, bytes, ht, hbytes, rfl⟩)
        | bodyError => exact h.elim
        | writeError bytes written => exact h.elim
    | complete k removes renames =>
        obtain ⟨rfl, rfl, rfl, job, fresh, hashed, writer, ht⟩ := h
        exact .inr (.inr ⟨job, fresh, hashed, writer, ht, rfl⟩)
    | start file target mirrors => exact h.elim
    | cancel k => exact h.elim
  · rintro (⟨job, got, ht, rfl⟩ | ⟨job, got, fresh, hashed, writer, bytes, ht, hbytes, rfl⟩ |
      ⟨job, fresh, hashed, writer, ht, rfl⟩)
    · exact ⟨rfl, rfl, job, got, ht, rfl⟩
    · exact ⟨rfl, job, got, fresh, hashed, writer, ht, hbytes⟩
    · exact ⟨rfl, rfl, rfl, job, fresh, hashed, writer, ht⟩

/-- The call `n` was made, and events that such mirrors cause have happened. -/
inductive Attempt (sha256 : Bytes → String) (content : Bytes) (n : ℕ) (s : Manager) : Manager → Prop
  | made : Attempt sha256 content n s s
  | step {t u : Manager} {e : DownloadEvent} : Attempt sha256 content n s t → Good content n t e →
      downloadStep sha256 t e = some u → Attempt sha256 content n s u

/-- The state after a call was made. -/
def Manager.made (s : Manager) (file : CatalogFile) (target : String) (mirrors : ℕ) : Manager :=
  { s.setTask s.next (s.retry { file, target, mirrors }) with next := s.next + 1 }

/-- **One further call completes the download**: it can always be finished, and wherever it has ended,
it has returned `Ok`, and given its final name to the correct file. -/
def Completes (sha256 : Bytes → String) (content : Bytes) (file : CatalogFile) (target : String)
    (mirrors : ℕ) (s : Manager) : Prop :=
  (∀ t, Attempt sha256 content s.next (s.made file target mirrors) t →
    ∃ u ok, Attempt sha256 content s.next t u ∧ u.tasks s.next = .ended ok) ∧
  ∀ t ok, Attempt sha256 content s.next (s.made file target mirrors) t →
    t.tasks s.next = .ended ok →
    ok = true ∧ ∃ fresh, t.renamed = ⟨file, fresh, content⟩ :: s.renamed

/-- What is left under the name with the suffix. -/
def PartFile.bytes (p : PartFile) : Bytes := (p.linked.map p.contents).getD []

theorem length_bytes (p : PartFile) : p.bytes.length = p.len := by
  rw [PartFile.bytes, PartFile.len]
  cases p.linked <;> rfl

theorem Attempt.trans {sha256 : Bytes → String} {content : Bytes} {n : ℕ} {s t u : Manager}
    (h : Attempt sha256 content n s t) (h' : Attempt sha256 content n t u) :
    Attempt sha256 content n s u := by
  induction h' with
  | made => exact h
  | step _ hgood hstep ih => exact ih.step hgood hstep

/-! ### What a call knows -/

/-- What is left can be added to: it is empty, or shorter than the file. -/
def Resumable (content left : Bytes) : Prop := left = [] ∨ left.length < content.length

/-- A call that is adding to what was left: it has `got` bytes of the file. -/
structure Adding (content : Bytes) (job : Job) (n : ℕ) (part : PartFile) (t : Manager) (got : ℕ)
    (fresh : Bool) (hashed : Bytes) (writer : Writer) : Prop where
  task : t.tasks n = .running job (.streaming got fresh hashed writer)
  knows : (Phase.streaming got fresh hashed writer).Knows (t.parts job.target)
  added : (t.parts job.target).contents writer.file =
    part.bytes ++ (content.take got).drop part.bytes.length
  above : part.bytes.length ≤ got
  within : got ≤ content.length
  resumable : Resumable content part.bytes
  whole : fresh = true → part.bytes = []

/-- A call that was made with `part` under the name with the suffix: it asks for the rest of that; or it is
adding the rest; or it has ended with all of it, or because there is no rest. -/
inductive Stage (content : Bytes) (file : CatalogFile) (target : String) (n : ℕ) (part : PartFile)
    (renamed : List Renamed) (t : Manager) : Prop
  | requesting (mirrors : ℕ)
      (task : t.tasks n = .running { file, target, mirrors } (.requesting part.bytes.length))
      (kept : t.parts target = part) (same : t.renamed = renamed)
  | adding (mirrors got : ℕ) (fresh : Bool) (hashed : Bytes) (writer : Writer)
      (adds : Adding content { file, target, mirrors } n part t got fresh hashed writer)
      (same : t.renamed = renamed)
  | completed (fresh : Bool) (task : t.tasks n = .ended true) (resumable : Resumable content part.bytes)
      (added : t.renamed = ⟨file, fresh, part.bytes ++ content.drop part.bytes.length⟩ :: renamed)
  | refused (task : t.tasks n = .ended false) (stuck : ¬ Resumable content part.bytes)

section Steps

variable {sha256 : Bytes → String} {content : Bytes} {file : CatalogFile} {target : String}
  {job : Job} {n : ℕ} {part : PartFile} {renamed : List Renamed} {t u : Manager}

/-- A call that asks the next mirror, with what was left as it is. -/
theorem stage_retry {mirrors : ℕ} (hpart : t.parts target = part) (hsame : t.renamed = renamed)
    (hmirrors : 0 < mirrors ∨ ¬ Resumable content part.bytes) {v : Manager}
    (htasks : v.tasks n = t.retry { file, target, mirrors }) (hparts : v.parts = t.parts)
    (hrenamed : v.renamed = t.renamed) : Stage content file target n part renamed v := by
  cases mirrors with
  | zero =>
      obtain h | h := hmirrors
      · exact absurd h (Nat.lt_irrefl 0)
      · exact .refused htasks h
  | succ mirrors =>
      refine .requesting mirrors ?_ (by rw [hparts, hpart]) (by rw [hrenamed, hsame])
      rw [htasks, length_bytes, ← hpart]
      rfl

/-- A call that was made with at least one mirror. -/
theorem stage_made {s : Manager} {mirrors : ℕ} (h : 0 < mirrors) :
    Stage content file target s.next (s.parts target) s.renamed (s.made file target mirrors) :=
  stage_retry (t := s) rfl rfl (.inl h) (Function.update_self _ _ _) rfl rfl

/-- The answer where something is left to ask for: the rest is added to what was left. -/
theorem response_of_resumable (hres : Resumable content part.bytes)
    (htask : t.tasks n = .running job (.requesting part.bytes.length))
    (hpart : t.parts job.target = part) :
    ∃ u got fresh hashed writer,
      downloadStep sha256 t (.response n (some (serveStatus content part.bytes.length)) true) = some u ∧
      Adding content job n part u got fresh hashed writer ∧ u.renamed = t.renamed := by
  by_cases hempty : part.bytes = []
  · -- the whole file is asked for
    have hcreate := knows_create (t.parts job.target)
    refine ⟨(t.setPart job.target (t.parts job.target).create.1).setTask n
      (.running job (.streaming 0 true [] (t.parts job.target).create.2)), 0, true, [],
      (t.parts job.target).create.2, ?_, ?_, rfl⟩
    · rw [hempty] at htask ⊢
      simp only [downloadStep, htask]
      rfl
    · have hparts : ((t.setPart job.target (t.parts job.target).create.1).setTask n
          (.running job (.streaming 0 true [] (t.parts job.target).create.2))).parts job.target =
          (t.parts job.target).create.1 := Function.update_self _ _ _
      refine ⟨Function.update_self _ _ _, by rw [hparts]; exact hcreate, ?_, by simp [hempty],
        Nat.zero_le _, hres, fun _ => hempty⟩
      rw [hparts, hcreate.2.2.1, hempty]
      rfl
  · have hpos : 0 < part.bytes.length := List.length_pos_of_ne_nil hempty
    have hlt : part.bytes.length < content.length := hres.resolve_left hempty
    obtain ⟨i, hi⟩ : ∃ i, part.linked = some i := by
      rw [PartFile.bytes] at hempty
      cases hlinked : part.linked with
      | none => rw [hlinked] at hempty; exact absurd rfl hempty
      | some i => exact ⟨i, rfl⟩
    have hbytes : part.bytes = part.contents i := by rw [PartFile.bytes, hi]; rfl
    have hstatus : serveStatus content part.bytes.length = 206 := by
      rw [serveStatus, if_neg hpos.ne', if_pos hlt]
    refine ⟨t.setTask n (.running job (.streaming part.bytes.length false [] ⟨i, none⟩)),
      part.bytes.length, false, [], ⟨i, none⟩, ?_, ?_, rfl⟩
    · rw [hstatus]
      simp only [downloadStep, htask]
      rw [if_pos (by decide), Manager.respond, hpart, hi]
      simp [hpos]
    · refine ⟨Function.update_self _ _ _, ?_, ?_, le_rfl, hlt.le, hres, fun h => by cases h⟩
      · change (Phase.streaming _ _ _ _).Knows (t.parts job.target)
        rw [hpart]
        exact knows_resume (length_bytes part) hi
      · change (t.parts job.target).contents i = _
        rw [hpart, ← hbytes, List.drop_eq_nil_of_le (List.length_take_le _ _), List.append_nil]

/-- The answer where nothing is left to ask for: the next mirror is asked for the same. -/
theorem response_of_not_resumable (hres : ¬ Resumable content part.bytes)
    (htask : t.tasks n = .running job (.requesting part.bytes.length)) :
    downloadStep sha256 t (.response n (some (serveStatus content part.bytes.length)) true) =
      some (t.nextMirror n job) := by
  rw [Resumable, not_or] at hres
  have hstatus : serveStatus content part.bytes.length = 416 := by
    rw [serveStatus, if_neg (List.length_pos_of_ne_nil hres.1).ne', if_neg hres.2]
  rw [hstatus]
  simp only [downloadStep, htask]
  exact if_neg (by decide)

/-- More bytes of what was asked for are added. -/
theorem chunk_of_adding {got : ℕ} {fresh : Bool} {hashed bytes : Bytes} {writer : Writer}
    (h : Adding content job n part t got fresh hashed writer) (hcanceled : job.canceled = false)
    (hbytes : bytes <+: content.drop got) :
    ∃ u, downloadStep sha256 t (.chunk n (.data bytes)) = some u ∧ u.renamed = t.renamed ∧
      Adding content job n part u (got + bytes.length) fresh
        (if fresh then hashed ++ bytes else hashed) (writer.advance bytes) := by
  refine ⟨(t.setPart job.target ((t.parts job.target).write writer bytes)).setTask n
    (.running job (.streaming (got + bytes.length) fresh (if fresh then hashed ++ bytes else hashed)
      (writer.advance bytes))), ?_, rfl, ?_⟩
  · simp only [downloadStep, h.task, hcanceled, Bool.false_eq_true, if_false]
  · have hparts : ((t.setPart job.target ((t.parts job.target).write writer bytes)).setTask n
        (.running job (.streaming (got + bytes.length) fresh (if fresh then hashed ++ bytes else hashed)
          (writer.advance bytes)))).parts job.target = (t.parts job.target).write writer bytes :=
      Function.update_self _ _ _
    have hlen := hbytes.length_le
    rw [List.length_drop] at hlen
    have habove := h.above
    have hwithin := h.within
    have htake : content.take (got + bytes.length) = content.take got ++ bytes := by
      rw [List.take_add, ← List.prefix_iff_eq_take.mp hbytes]
    refine ⟨Function.update_self _ _ _, by rw [hparts]; exact knows_write h.knows, ?_, by omega, by omega,
      h.resumable, h.whole⟩
    change (PartFile.contents _ writer.file) = _
    rw [hparts, contents_write h.knows, h.added, htake, List.append_assoc,
      List.drop_append_of_le_length (by rw [List.length_take]; omega)]

/-- The end of the rest: the file has its size and its digest, and is renamed. -/
theorem complete_of_adding {fresh : Bool} {hashed : Bytes} {writer : Writer}
    (h : Adding content job n part t content.length fresh hashed writer)
    (hsize : content.length = job.file.size)
    (hdigest : ∀ want ∈ job.file.sha256, Text.eqIgnoreAsciiCase (sha256 content) want = true) :
    ∃ u, downloadStep sha256 t (.complete n true true) = some u ∧ u.tasks n = .ended true ∧
      u.renamed = ⟨job.file, fresh, part.bytes ++ content.drop part.bytes.length⟩ :: t.renamed := by
  have haccepted : digestAccepted sha256 job.file fresh hashed = true := by
    cases fresh with
    | false => rfl
    | true =>
        have hhashed : hashed = content := by
          rw [← h.knows.2.2.1, h.added, h.whole rfl, List.nil_append, List.length_nil, List.drop_zero,
            List.take_length]
        unfold digestAccepted
        cases hwant : job.file.sha256 with
        | none => rfl
        | some want =>
            rw [hhashed]
            exact hdigest want hwant
  have hstep : downloadStep sha256 t (.complete n true true) = some (t.rename n job fresh true) := by
    simp only [downloadStep, h.task]
    rw [if_neg (not_not_intro hsize), if_pos haccepted]
  refine ⟨_, hstep, ?_, ?_⟩ <;> simp only [Manager.rename, h.knows.1]
  · exact Function.update_self _ _ _
  · rw [h.added, List.take_length]

/-- **Every event that good mirrors cause keeps what the call knows.** -/
theorem stage_step {e : DownloadEvent} (hsize : content.length = file.size)
    (hdigest : ∀ want ∈ file.sha256, Text.eqIgnoreAsciiCase (sha256 content) want = true)
    (h : Stage content file target n part renamed t) (hgood : Good content n t e)
    (hstep : downloadStep sha256 t e = some u) : Stage content file target n part renamed u := by
  rcases good_iff.mp hgood with ⟨job, got, ht, rfl⟩ |
    ⟨job, got, fresh, hashed, writer, bytes, ht, hbytes, rfl⟩ | ⟨job, fresh, hashed, writer, ht, rfl⟩
  · -- a call that asks is answered
    cases h with
    | completed _ task _ _ => rw [task] at ht; cases ht
    | refused task _ => rw [task] at ht; cases ht
    | adding _ _ _ _ _ adds _ => rw [adds.task] at ht; cases ht
    | requesting mirrors task kept same =>
        rw [task] at ht
        cases ht
        by_cases hres : Resumable content part.bytes
        · obtain ⟨v, got, fresh, hashed, writer, hv, hadds, hsame⟩ :=
            response_of_resumable hres task kept
          obtain rfl : v = u := Option.some.inj (hv.symm.trans hstep)
          exact .adding mirrors got fresh hashed writer hadds (hsame.trans same)
        · rw [response_of_not_resumable hres task] at hstep
          obtain rfl := Option.some.inj hstep
          exact stage_retry kept same (.inr hres) (Function.update_self _ _ _) rfl rfl
  · -- a call that is adding gets more
    cases h with
    | completed _ task _ _ => rw [task] at ht; cases ht
    | refused task _ => rw [task] at ht; cases ht
    | requesting _ task _ _ => rw [task] at ht; cases ht
    | adding mirrors _ _ _ _ adds same =>
        rw [adds.task] at ht
        cases ht
        obtain ⟨v, hv, hsame, hadds⟩ := chunk_of_adding adds rfl hbytes
        obtain rfl : v = u := Option.some.inj (hv.symm.trans hstep)
        exact .adding mirrors _ _ _ _ hadds (hsame.trans same)
  · -- a call that has got everything ends
    cases h with
    | completed _ task _ _ => rw [task] at ht; cases ht
    | refused task _ => rw [task] at ht; cases ht
    | requesting _ task _ _ => rw [task] at ht; cases ht
    | adding mirrors _ _ _ _ adds same =>
        rw [adds.task] at ht
        cases ht
        obtain ⟨v, hv, htask, hadded⟩ := complete_of_adding adds hsize hdigest
        obtain rfl : v = u := Option.some.inj (hv.symm.trans hstep)
        exact .completed _ htask adds.resumable (by rw [hadded, same])

/-- What the call knows in the course of an attempt. -/
theorem stage_attempt (hsize : content.length = file.size)
    (hdigest : ∀ want ∈ file.sha256, Text.eqIgnoreAsciiCase (sha256 content) want = true)
    (h : Stage content file target n part renamed t) (hrun : Attempt sha256 content n t u) :
    Stage content file target n part renamed u := by
  induction hrun with
  | made => exact h
  | step _ hgood hstep ih => exact stage_step hsize hdigest ih hgood hstep

/-! ### The end of an attempt -/

/-- A call that is adding can be finished, with all that is missing at once. -/
theorem exists_end_of_adding {got : ℕ} {fresh : Bool} {hashed : Bytes} {writer : Writer}
    (h : Adding content job n part t got fresh hashed writer) (hcanceled : job.canceled = false)
    (hsize : content.length = job.file.size)
    (hdigest : ∀ want ∈ job.file.sha256, Text.eqIgnoreAsciiCase (sha256 content) want = true) :
    ∃ u ok, Attempt sha256 content n t u ∧ u.tasks n = .ended ok := by
  obtain ⟨v, hv, -, hadds⟩ := chunk_of_adding h hcanceled (List.prefix_refl _)
  have hall : got + (content.drop got).length = content.length := by
    have := h.within
    rw [List.length_drop]
    omega
  rw [hall] at hadds
  obtain ⟨u, hu, htask, -⟩ := complete_of_adding hadds hsize hdigest
  refine ⟨u, true, ?_, htask⟩
  have hchunk : Good content n t (.chunk n (.data (content.drop got))) :=
    good_iff.mpr (.inr (.inl ⟨_, _, _, _, _, _, h.task, List.prefix_refl _, rfl⟩))
  have hend : Good content n v (.complete n true true) :=
    good_iff.mpr (.inr (.inr ⟨_, _, _, _, hadds.task, rfl⟩))
  exact (Attempt.made.step hchunk hv).step hend hu

/-- An attempt can always be finished. -/
theorem exists_end (hsize : content.length = file.size)
    (hdigest : ∀ want ∈ file.sha256, Text.eqIgnoreAsciiCase (sha256 content) want = true)
    (h : Stage content file target n part renamed t) :
    ∃ u ok, Attempt sha256 content n t u ∧ u.tasks n = .ended ok := by
  cases h with
  | completed fresh task _ _ => exact ⟨t, true, .made, task⟩
  | refused task _ => exact ⟨t, false, .made, task⟩
  | adding mirrors got fresh hashed writer adds same =>
      exact exists_end_of_adding adds rfl hsize hdigest
  | requesting mirrors task kept same =>
      have hasked : ∀ {t : Manager} {job : Job}, t.tasks n = .running job (.requesting part.bytes.length) →
          Good content n t (.response n (some (serveStatus content part.bytes.length)) true) :=
        fun ht => good_iff.mpr (.inl ⟨_, _, ht, rfl⟩)
      by_cases hres : Resumable content part.bytes
      · obtain ⟨v, got, fresh, hashed, writer, hv, hadds, -⟩ := response_of_resumable hres task kept
        obtain ⟨u, ok, hu, hend⟩ := exists_end_of_adding hadds rfl hsize hdigest
        exact ⟨u, ok, (Attempt.made.step (hasked task) hv).trans hu, hend⟩
      · -- one mirror after the other refuses, until none is left
        induction mirrors generalizing t with
        | zero =>
            exact ⟨_, false, Attempt.made.step (hasked task) (response_of_not_resumable hres task),
              Function.update_self _ _ _⟩
        | succ mirrors ih =>
            have hnext : (t.nextMirror n { file, target, mirrors := mirrors + 1 }).tasks n =
                .running { file, target, mirrors } (.requesting part.bytes.length) := by
              rw [length_bytes, ← kept]
              exact Function.update_self _ _ _
            obtain ⟨u, ok, hu, hend⟩ := ih hnext kept same
            exact ⟨u, ok, (Attempt.made.step (hasked task) (response_of_not_resumable hres task)).trans hu,
              hend⟩

end Steps

/-- What is left is a beginning of the file that another call can complete. -/
def Beginning (content left : Bytes) : Prop := left <+: content ∧ Resumable content left

instance (content left : Bytes) : Decidable (Beginning content left) :=
  inferInstanceAs (Decidable (left <+: content ∧ (left = [] ∨ left.length < content.length)))

/-- A call that ends is right exactly with a beginning of the file. -/
theorem Stage.end_iff {content : Bytes} {file : CatalogFile} {target : String} {n : ℕ} {part : PartFile}
    {renamed : List Renamed} {t : Manager} {ok : Bool}
    (h : Stage content file target n part renamed t) (hend : t.tasks n = .ended ok) :
    (ok = true ∧ ∃ fresh, t.renamed = ⟨file, fresh, content⟩ :: renamed) ↔
      Beginning content part.bytes := by
  cases h with
  | requesting mirrors task _ _ => rw [task] at hend; cases hend
  | adding mirrors got fresh hashed writer adds _ => rw [adds.task] at hend; cases hend
  | refused task stuck =>
      rw [task] at hend
      cases hend
      exact ⟨fun h => absurd h.1 Bool.false_ne_true, fun h => absurd h.2 stuck⟩
  | completed fresh task resumable added =>
      rw [task] at hend
      cases hend
      have hrest : part.bytes ++ content.drop part.bytes.length = content ↔ part.bytes <+: content :=
        ⟨fun h => ⟨_, h⟩, fun h => (List.prefix_iff_eq_append.mp h)⟩
      constructor
      · rintro ⟨-, fresh', h⟩
        rw [added, List.cons.injEq, Renamed.mk.injEq] at h
        exact ⟨hrest.mp h.1.2.2, resumable⟩
      · intro h
        exact ⟨rfl, fresh, by rw [added, hrest.mpr h.1]⟩

/-- Making a call is the first step of it. -/
theorem step_start (sha256 : Bytes → String) (s : Manager) (file : CatalogFile) (target : String)
    (mirrors : ℕ) : downloadStep sha256 s (.start file target mirrors) = some (s.made file target mirrors) :=
  rfl

/-- What can be completed is a beginning of the file. -/
theorem Completes.beginning {sha256 : Bytes → String} {content : Bytes} {file : CatalogFile}
    {mirrors : ℕ} {target : String} {s : Manager} (hsize : content.length = file.size)
    (hdigest : ∀ want ∈ file.sha256, Text.eqIgnoreAsciiCase (sha256 content) want = true)
    (hmirrors : 0 < mirrors) (h : Completes sha256 content file target mirrors s) :
    Beginning content (s.parts target).bytes := by
  obtain ⟨t, ok, ht, hend⟩ := h.1 _ .made
  exact ((stage_attempt hsize hdigest (stage_made hmirrors) ht).end_iff hend).mp (h.2 t ok ht hend)

/-- One further call against mirrors that serve the correct file completes its download, from every state,
exactly where nothing is left of it, or a beginning that is shorter than the file. -/
theorem completes_iff {sha256 : Bytes → String} {content : Bytes} {file : CatalogFile} {mirrors : ℕ}
    (hsize : content.length = file.size)
    (hdigest : ∀ want ∈ file.sha256, Text.eqIgnoreAsciiCase (sha256 content) want = true)
    (hmirrors : 0 < mirrors) (target : String) (s : Manager) :
    Completes sha256 content file target mirrors s ↔ Beginning content (s.parts target).bytes := by
  refine ⟨Completes.beginning hsize hdigest hmirrors, fun hbegin => ?_⟩
  have hstage : ∀ {t : Manager}, Attempt sha256 content s.next (s.made file target mirrors) t →
      Stage content file target s.next (s.parts target) s.renamed t :=
    stage_attempt hsize hdigest (stage_made hmirrors)
  exact ⟨fun t ht => exists_end hsize hdigest (hstage ht),
    fun t ok ht hend => ((hstage ht).end_iff hend).mpr hbegin⟩

/-- Two of four bytes are left. -/
theorem completes_half :
    Completes knownDigest [1, 2, 3, 4] fourBytes "a/model.bin" 1 (Manager.start fun _ => some [1, 2]) :=
  (completes_iff rfl (by decide) (by decide) "a/model.bin" _).mpr (by decide)

/-- The file is downloaded, and then cannot be given its final name. -/
def notRenamed : List DownloadEvent :=
  [.start fourBytes "a/model.bin" 1, .response 0 (some 200) true, .chunk 0 (.data [1, 2, 3, 4]),
    .complete 0 true false]

/-- After a download whose end fails, everything is left, and no further call completes it. -/
theorem not_completes_notRenamed :
    ∃ s, exec (downloadStep knownDigest) (Manager.start fun _ => none) notRenamed = some s ∧
      (s.parts "a/model.bin").bytes = [1, 2, 3, 4] ∧
      ¬ Completes knownDigest [1, 2, 3, 4] fourBytes "a/model.bin" 1 s := by
  have hend : (exec (downloadStep knownDigest) (Manager.start fun _ => none) notRenamed).map
      (fun s => (s.parts "a/model.bin").bytes) = some [1, 2, 3, 4] := by
    decide
  obtain ⟨s, hs, hleft⟩ := Option.map_eq_some_iff.1 hend
  refine ⟨s, hs, hleft, fun h => ?_⟩
  have hbegin := h.beginning rfl (by decide) (by decide)
  rw [hleft] at hbegin
  exact absurd hbegin (by decide)

end Models

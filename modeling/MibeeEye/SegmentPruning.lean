/-
**Pruning the archive.**

`prune_oldest_if_needed` removes the oldest recordings of a `FileOutput` until the directory has its
size.  The order, the point where it stops and what it returns are right whatever cannot be removed;
but the segment that is being written is a file like the others, and is removed when those before it
are not enough; and the sizes are added, and the limit computed, without a look at their width.

Main definitions:

* `Recording.OldestFirst` — what should be removed;
* `Recording.PrunesOnlyWhatItMust` — all that is wanted of the pruning;
* `Recording.PrunesSafely` — when it is so.

Main results:

* `Recording.sumSizes_eq`, `Recording.pruneLoop_eq` — the sum and the loop;
* `Recording.pruneOldestIfNeeded_eq` — what the pruning does;
* `Recording.prunesOnlyWhatItMust_iff` — **when only what must be is removed**;
* `Recording.spared_of_writeFrame` — the file that is written, after a frame.
-/

import MibeeEye.Eviction
import MibeeEye.FileOutput

set_option relaxedAutoImplicit false
set_option autoImplicit false

namespace Recording

open Eviction FileOutput

/-! ### What is wanted -/

/-- The file of an entry cannot be removed. -/
def stuckBy (fails : List Char → Bool) (f : Entry) : Bool := fails f.path

/-- The oldest files are removed, those that can be, to the first point where little enough
remains. -/
def OldestFirst (limit : ℕ) (fails : List Char → Bool) (entries removed : List Entry) : Prop :=
  ∃ sorted : List Entry, sorted.Perm entries ∧ sorted.Pairwise (fun f g => f.mtime ≤ g.mtime) ∧
    Evicts Entry.size (stuckBy fails) limit sorted (totalSize entries) removed

/-- **Only what must be is removed**: the pruning returns, oldest files first, never the segment that
is written, and tells whether it has removed something. -/
def PrunesOnlyWhatItMust (o : FileOutput) (listing : List (Option DirEntry))
    (fails : List Char → Bool) : Prop :=
  ∃ returned removed,
    o.pruneOldestIfNeeded (some listing) fails = some (some returned, removed) ∧
      OldestFirst (o.maxCapacityMb * 1024 * 1024) fails (o.entries listing) removed ∧
      (∀ a, o.active = some a → ∀ f ∈ removed, f.path ≠ a.muxer.file) ∧
      (returned = true ↔ ∃ f ∈ removed, f.size ≠ 0)

/-- The numbers have 64 bits; and where the file of the active segment can be removed, it fits under
the limit together with those that are not older and those older ones that cannot be removed. -/
structure PrunesSafely (o : FileOutput) (listing : List (Option DirEntry))
    (fails : List Char → Bool) : Prop where
  limit : o.maxCapacityMb * 1024 * 1024 < 2 ^ 64
  sizes : totalSize (o.entries listing) < 2 ^ 64
  active : ∀ a, o.active = some a → ∀ before f after,
    sortByKey (o.entries listing) = before ++ f :: after → f.path = a.muxer.file →
      fails f.path = false →
      totalSize (before.filter (stuckBy fails)) + f.size + totalSize after ≤
        o.maxCapacityMb * 1024 * 1024

/-! ### The sum, and the loop -/

theorem u64_of_lt {n : ℕ} (h : n < 2 ^ 64) : u64 n = some n := if_pos h

theorem u64_of_not {n : ℕ} (h : ¬ n < 2 ^ 64) : u64 n = none := if_neg h

/-- **The sum** is the size of all, if that has 64 bits. -/
theorem sumSizes_eq (entries : List Entry) {total : ℕ} (h : total < 2 ^ 64) :
    sumSizes entries total =
      if total + totalSize entries < 2 ^ 64 then some (total + totalSize entries) else none := by
  induction entries generalizing total with
  | nil => exact (if_pos h).symm
  | cons e es ih =>
      have hsize : total + totalSize (e :: es) = total + e.size + totalSize es := by
        rw [totalSize, List.map_cons, List.sum_cons, ← add_assoc]
        rfl
      rw [sumSizes, hsize]
      by_cases hfits : total + e.size < 2 ^ 64
      · rw [u64_of_lt hfits, Option.bind_some, ih hfits]
      · rw [u64_of_not hfits, Option.bind_none, if_neg]
        omega

variable {fails : List Char → Bool} {maxBytes : ℕ}

/-- **The loop** removes what is to be removed, and subtracts its size, which never panics. -/
theorem pruneLoop_eq (entries : List Entry) {remaining : ℕ} (h : totalSize entries ≤ remaining) :
    pruneLoop maxBytes fails entries remaining =
      some (remaining -
          weight Entry.size (evict Entry.size (stuckBy fails) maxBytes entries remaining),
        evict Entry.size (stuckBy fails) maxBytes entries remaining) := by
  induction entries generalizing remaining with
  | nil => rfl
  | cons e es ih =>
      have hsize : totalSize (e :: es) = e.size + totalSize es := weight_cons Entry.size e es
      rw [hsize] at h
      by_cases hle : remaining ≤ maxBytes
      · rw [pruneLoop, if_pos hle, evict_of_le hle]
        rfl
      · rw [pruneLoop, if_neg hle]
        cases hstuck : stuckBy fails e with
        | true =>
            have hfails : fails e.path = true := hstuck
            rw [if_pos hfails, evict_cons_of_stuck hle hstuck]
            exact ih (by omega)
        | false =>
            have hfails : ¬ fails e.path = true := by
              intro hfails
              exact Bool.false_ne_true (hstuck.symm.trans hfails)
            rw [if_neg hfails, if_neg (by omega), evict_cons_of_not hle hstuck, ih (by omega),
              weight_cons, Option.map_some, Nat.sub_sub]

/-! ### The pruning -/

theorem perm_sortByKey (entries : List Entry) : (sortByKey entries).Perm entries :=
  List.perm_insertionSort _ entries

theorem pairwise_sortByKey (entries : List Entry) :
    (sortByKey entries).Pairwise fun f g => f.mtime ≤ g.mtime := by
  have htotal : Std.Total fun f g : Entry => f.mtime ≤ g.mtime :=
    ⟨fun f g => le_total f.mtime g.mtime⟩
  have htrans : IsTrans Entry fun f g => f.mtime ≤ g.mtime := ⟨fun _ _ _ => le_trans⟩
  exact List.pairwise_insertionSort _ entries

theorem totalSize_sortByKey (entries : List Entry) :
    totalSize (sortByKey entries) = totalSize entries :=
  ((perm_sortByKey entries).map Entry.size).sum_eq

variable {o : FileOutput} {listing : List (Option DirEntry)}

/-- What is to be removed of a directory. -/
def evicted (o : FileOutput) (listing : List (Option DirEntry)) (fails : List Char → Bool) :
    List Entry :=
  evict Entry.size (stuckBy fails) (o.maxCapacityMb * 1024 * 1024) (sortByKey (o.entries listing))
    (totalSize (o.entries listing))

theorem u64_kilobytes (h : o.maxCapacityMb * 1024 * 1024 < 2 ^ 64) :
    u64 (o.maxCapacityMb * 1024) = some (o.maxCapacityMb * 1024) :=
  u64_of_lt ((Nat.le_mul_of_pos_right _ (by decide)).trans_lt h)

/-- **What the pruning does**, if the numbers have 64 bits. -/
theorem pruneOldestIfNeeded_eq (hcap : 1 ≤ o.maxCapacityMb)
    (hlimit : o.maxCapacityMb * 1024 * 1024 < 2 ^ 64)
    (hsizes : totalSize (o.entries listing) < 2 ^ 64) :
    ∃ returned,
      o.pruneOldestIfNeeded (some listing) fails =
        some (some returned, evicted o listing fails) ∧
      (returned = true ↔ ∃ f ∈ evicted o listing fails, f.size ≠ 0) := by
  have hsum : sumSizes (o.entries listing) 0 = some (totalSize (o.entries listing)) := by
    rw [sumSizes_eq _ (by decide), Nat.zero_add, if_pos hsizes]
  rw [pruneOldestIfNeeded, if_neg (by omega)]
  simp only [u64_kilobytes hlimit, u64_of_lt hlimit, hsum, Option.bind_eq_bind, Option.bind_some]
  by_cases hle : totalSize (o.entries listing) ≤ o.maxCapacityMb * 1024 * 1024
  · have hnone : evicted o listing fails = [] := evict_of_le hle
    rw [if_pos hle, hnone]
    exact ⟨false, rfl, by simp⟩
  · rw [if_neg hle, pruneLoop_eq _ (totalSize_sortByKey _).le, Option.bind_some]
    refine ⟨_, rfl, ?_⟩
    rw [decide_eq_true_iff, ← weight_pos_iff]
    change _ - weight Entry.size (evicted o listing fails) < _ ↔ _
    omega

/-- **What panics**: a limit or a total of more than 64 bits. -/
theorem fits_of_pruneOldestIfNeeded (hcap : 1 ≤ o.maxCapacityMb)
    (h : o.pruneOldestIfNeeded (some listing) fails ≠ none) :
    o.maxCapacityMb * 1024 * 1024 < 2 ^ 64 ∧ totalSize (o.entries listing) < 2 ^ 64 := by
  rw [pruneOldestIfNeeded, if_neg (by omega)] at h
  by_cases hlimit : o.maxCapacityMb * 1024 * 1024 < 2 ^ 64
  · refine ⟨hlimit, ?_⟩
    by_contra hsizes
    have hsum : sumSizes (o.entries listing) 0 = none := by
      rw [sumSizes_eq _ (by decide), Nat.zero_add, if_neg hsizes]
    simp [u64_kilobytes hlimit, hsum] at h
  · exfalso
    by_cases hkilobytes : o.maxCapacityMb * 1024 < 2 ^ 64
    · simp [u64_of_lt hkilobytes, u64_of_not hlimit] at h
    · simp [u64_of_not hkilobytes] at h

/-- What is removed is what should be. -/
theorem oldestFirst_evicted (o : FileOutput) (listing : List (Option DirEntry))
    (fails : List Char → Bool) :
    OldestFirst (o.maxCapacityMb * 1024 * 1024) fails (o.entries listing)
      (evicted o listing fails) :=
  ⟨sortByKey (o.entries listing), perm_sortByKey _, pairwise_sortByKey _, evicts_evict _ _⟩

/-- The file of a segment is removed when it, and what is not older, and what is older and cannot be
removed, are too much. -/
theorem forall_ne_iff (o : FileOutput) (listing : List (Option DirEntry)) (fails : List Char → Bool)
    (file : List Char) :
    (∀ f ∈ evicted o listing fails, f.path ≠ file) ↔
      ∀ before f after, sortByKey (o.entries listing) = before ++ f :: after → f.path = file →
        fails f.path = false →
        totalSize (before.filter (stuckBy fails)) + f.size + totalSize after ≤
          o.maxCapacityMb * 1024 * 1024 := by
  have htotal : ∀ before f after, sortByKey (o.entries listing) = before ++ f :: after →
      totalSize (o.entries listing) - weight Entry.size (movable (stuckBy fails) before) =
        totalSize (before.filter (stuckBy fails)) + f.size + totalSize after := by
    intro before f after hsplit
    have hbefore := weight_movable_add Entry.size (stuckBy fails) before
    have hall : totalSize (o.entries listing) =
        weight Entry.size before + (f.size + totalSize after) := by
      rw [← totalSize_sortByKey, hsplit]
      exact (weight_append Entry.size _ _).trans (congrArg _ (weight_cons Entry.size _ _))
    change _ + totalSize (before.filter (stuckBy fails)) = _ at hbefore
    omega
  constructor
  · intro h before f after hsplit hfile hfails
    by_contra hlt
    rw [Nat.not_le, ← htotal before f after hsplit] at hlt
    exact h f (mem_evict_iff.2 ⟨before, after, hsplit, hfails, hlt⟩) hfile
  · intro h f hf hfile
    obtain ⟨before, after, hsplit, hfails, hlt⟩ := mem_evict_iff.1 hf
    rw [htotal before f after hsplit] at hlt
    exact absurd (h before f after hsplit hfile hfails) (Nat.not_le.2 hlt)

/-- **When only what must be is removed.** -/
theorem prunesOnlyWhatItMust_iff (o : FileOutput) (hcap : 1 ≤ o.maxCapacityMb)
    (listing : List (Option DirEntry)) (fails : List Char → Bool) :
    PrunesOnlyWhatItMust o listing fails ↔ PrunesSafely o listing fails := by
  constructor
  · rintro ⟨returned, removed, h, -, hactive, -⟩
    obtain ⟨hlimit, hsizes⟩ := fits_of_pruneOldestIfNeeded hcap (by rw [h]; exact nofun)
    obtain ⟨returned', h', -⟩ := @pruneOldestIfNeeded_eq fails o listing hcap hlimit hsizes
    rw [h, Option.some.injEq, Prod.mk.injEq] at h'
    obtain ⟨-, rfl⟩ := h'
    exact
      { limit := hlimit
        sizes := hsizes
        active := fun a ha => (forall_ne_iff o listing fails a.muxer.file).1 (hactive a ha) }
  · intro h
    obtain ⟨returned, heq, hreturned⟩ :=
      @pruneOldestIfNeeded_eq fails o listing hcap h.limit h.sizes
    refine ⟨returned, _, heq, oldestFirst_evicted o listing fails, fun a ha => ?_, hreturned⟩
    exact (forall_ne_iff o listing fails a.muxer.file).2 (h.active a ha)

/-! ### The segment that is written -/

/-- A directory that cannot be read is left as it is, and so is one without a limit. -/
theorem ne_of_pruned {read : Option (List (Option DirEntry))} {p : Option Bool × List Entry}
    {a : ActiveSegment} (h : o.pruneOldestIfNeeded read fails = some p)
    (hsafe : ∀ listing, read = some listing → PrunesSafely o listing fails)
    (ha : o.active = some a) : ∀ f ∈ p.2, f.path ≠ a.muxer.file := by
  rcases Nat.eq_zero_or_pos o.maxCapacityMb with hcap | hcap
  · rw [pruneOldestIfNeeded, if_pos hcap] at h
    cases h
    exact nofun
  cases read with
  | none =>
      rw [pruneOldestIfNeeded, if_neg hcap.ne'] at h
      obtain ⟨kilobytes, -, h⟩ := Option.bind_eq_some_iff.1 h
      obtain ⟨bytes, -, h⟩ := Option.bind_eq_some_iff.1 h
      cases h
      exact nofun
  | some listing =>
      have hsafe := hsafe listing rfl
      obtain ⟨returned, heq, -⟩ :=
        @pruneOldestIfNeeded_eq fails o listing hcap hsafe.limit hsafe.sizes
      rw [h, Option.some.injEq] at heq
      rw [heq]
      exact (forall_ne_iff o listing fails a.muxer.file).2 (hsafe.active a ha)

/-- **A frame leaves the file it is written to**, where the pruning is safe. -/
theorem spared_of_writeFrame {r t : Recorder} {e : Env} {keyframe : Bool} {data : List UInt8}
    {timestamp : ℕ} {result : Except (List Char) Unit} {a : ActiveSegment}
    (h : r.writeFrame keyframe data timestamp e = some (t, result))
    (hsafe : ∀ listing, e.listing = some listing → PrunesSafely t.output listing e.fails)
    (ha : t.output.active = some a) (hremoved : a.muxer.file ∈ t.removed) :
    a.muxer.file ∈ r.removed := by
  unfold Recorder.writeFrame at h
  split at h
  · cases h
    exact hremoved
  · split at h
    · cases h
      exact hremoved
    · dsimp only at h
      split at h
      · obtain ⟨p, hp, h⟩ := Option.map_eq_some_iff.1 h
        cases h
        rcases List.mem_append.1 hremoved with hremoved | hremoved
        · exact hremoved
        · obtain ⟨f, hf, hfile⟩ := List.mem_map.1 hremoved
          exact absurd hfile (ne_of_pruned hp hsafe ha f hf)
      · cases h
        exact hremoved

/-- A segment of two megabytes, and a limit of one. -/
def overLimit : FileOutput :=
  { FileOutput.new ['r'] ['c'] 900 1 with
    started := true
    active := some
      { muxer := { file := ['r', '/', 'c', '.', 'm', 'p', '4'], width := 1280, height := 720, fps := 30 }
        createdAt := 0 } }

/-- A file of the directory. -/
def recording (name : Char) (modified len : ℕ) : Option DirEntry :=
  some { fileName := name :: extension
         metadata := some { isFile := true, modified := some modified, len } }

/-- The older file is enough. -/
theorem prunes_older :
    PrunesOnlyWhatItMust overLimit [recording 'c' 2 1000, recording 'b' 1 (2 * 1024 * 1024)]
      fun _ => false := by
  refine (prunesOnlyWhatItMust_iff overLimit (by decide) _ _).2 ⟨by decide, by decide, ?_⟩
  rintro a ⟨⟩ before f after hsplit hfile -
  have hsort : sortByKey (overLimit.entries
      [recording 'c' 2 1000, recording 'b' 1 (2 * 1024 * 1024)]) =
        [{ path := ['r', '/', 'b', '.', 'm', 'p', '4'], mtime := 1, size := 2 * 1024 * 1024 },
          { path := ['r', '/', 'c', '.', 'm', 'p', '4'], mtime := 2, size := 1000 }] := rfl
  rw [hsort] at hsplit
  rcases before with _ | ⟨_, _ | ⟨_, before⟩⟩
  · cases hsplit
    cases hfile
  · cases hsplit
    decide
  · simp at hsplit

/-- The segment alone is too much, and is removed while it is written. -/
theorem active_removed :
    ¬ PrunesOnlyWhatItMust overLimit [recording 'c' 2 (2 * 1024 * 1024)] fun _ => false := by
  rintro ⟨returned, removed, h, -, hactive, -⟩
  have hprune : overLimit.pruneOldestIfNeeded (some [recording 'c' 2 (2 * 1024 * 1024)])
      (fun _ => false) = some (some true,
        [{ path := ['r', '/', 'c', '.', 'm', 'p', '4'], mtime := 2, size := 2 * 1024 * 1024 }]) := by
    decide
  rw [h, Option.some.injEq, Prod.mk.injEq] at hprune
  exact hactive _ rfl _ (hprune.2 ▸ List.mem_singleton.2 rfl) rfl

end Recording

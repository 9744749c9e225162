/-
**The memory of each stream.**

`StreamBudget` of `crates/streaming/src/resource.rs` has the bytes that each stream has allocated, and
refuses an allocation that exceeds the limit of a stream.  An allocation makes the entry of its stream
before it is checked: one that is refused, or is of no bytes, leaves an entry that is zero.

Main definitions:

* `Budget.StreamBudget`, with `tryAlloc`, `release`, `removeStream` and what is asked of it;
* `Budget.Event`, `Budget.step` — the calls;
* `Budget.Accounted` — what is to hold in every state;
* `Budget.Accountable` — the calls that keep it.

Main results:

* `Budget.accounted_step` — **one call**;
* `Budget.accounted_iff` — **which runs are accounted for**.
-/

import MibeeEye.FixedWidth
import MibeeEye.KeyedTable
import MibeeEye.StepMachine
import Mathlib.Algebra.Order.BigOperators.Group.List

set_option relaxedAutoImplicit false
set_option autoImplicit false

namespace Budget

open FixedWidth Keyed Machine

variable {ι : Type} [DecidableEq ι]

/-! ### The tracker -/

/-- The bytes of each stream. -/
abbrev Entries (ι : Type) : Type := Table (Prod.fst : ι × ℕ → ι)

/-- `StreamBudget`. -/
structure StreamBudget (ι : Type) where
  inner : Entries ι
  maxPerStream : ℕ

namespace StreamBudget

/-- `StreamBudget::with_max_per_stream`. -/
def withMaxPerStream (maxPerStream : ℕ) : StreamBudget ι := ⟨Table.empty, maxPerStream⟩

/-- `entry(stream_id).or_insert(0)`: the entries with that of a stream. -/
def entry (b : StreamBudget ι) (id : ι) : Entries ι :=
  if h : id ∈ b.inner.rows.map Prod.fst then b.inner else b.inner.insert (id, 0) h

/-- `StreamBudget::allocated`. -/
def allocated (b : StreamBudget ι) (id : ι) : ℕ := ((b.inner.find? id).map Prod.snd).getD 0

/-- What a stream would have with so many more bytes. -/
def newTotal (b : StreamBudget ι) (id : ι) (bytes : ℕ) : ℕ := saturated 64 (b.allocated id + bytes)

/-- `StreamBudget::try_alloc`. -/
def tryAlloc [ToString ι] (b : StreamBudget ι) (id : ι) (bytes : ℕ) :
    Except String Unit × StreamBudget ι :=
  let inner := b.entry id
  if b.maxPerStream < b.newTotal id bytes then
    (.error ("503: Per-stream memory budget exceeded for stream " ++ toString id), { b with inner })
  else (.ok (), { b with inner := inner.upsert (id, b.newTotal id bytes) })

/-- `StreamBudget::release`. -/
def release (b : StreamBudget ι) (id : ι) (bytes : ℕ) : StreamBudget ι :=
  match b.inner.find? id with
  | none => b
  | some (_, current) =>
      if current - bytes = 0 then { b with inner := b.inner.others id }
      else { b with inner := b.inner.upsert (id, current - bytes) }

/-- `StreamBudget::remove_stream`. -/
def removeStream (b : StreamBudget ι) (id : ι) : StreamBudget ι := { b with inner := b.inner.others id }

/-- `StreamBudget::stream_count`. -/
def streamCount (b : StreamBudget ι) : ℕ := b.inner.size

/-- `StreamBudget::stream_budgets`. -/
def streamBudgets (b : StreamBudget ι) : List (ι × ℕ) := b.inner.rows

/-- `StreamBudget::total_allocated`. -/
def totalAllocated (b : StreamBudget ι) (build : Build) : Option ℕ :=
  build.result 64 (b.inner.rows.map Prod.snd).sum

end StreamBudget

/-- The calls that change the tracker. -/
inductive Event (ι : Type)
  | tryAlloc (id : ι) (bytes : ℕ)
  | release (id : ι) (bytes : ℕ)
  | removeStream (id : ι)

variable [ToString ι]

/-- The tracker after a call. -/
def step (b : StreamBudget ι) : Event ι → Option (StreamBudget ι)
  | .tryAlloc id bytes => some (b.tryAlloc id bytes).2
  | .release id bytes => some (b.release id bytes)
  | .removeStream id => some (b.removeStream id)

/-! ### What is to hold -/

/-- **No stream has more than its limit, the total is that of the streams, and no entry is zero.** -/
structure Accounted (build : Build) (b : StreamBudget ι) : Prop where
  bounded : ∀ id, b.allocated id ≤ b.maxPerStream
  total : b.totalAllocated build = some (b.streamBudgets.map Prod.snd).sum
  positive : ∀ r ∈ b.streamBudgets, 0 < r.2

/-- **A call that is refused changes nothing.** -/
def RefusesCleanly (b : StreamBudget ι) : Event ι → Prop
  | .tryAlloc id bytes => ∀ e, (b.tryAlloc id bytes).1 = .error e →
      (b.tryAlloc id bytes).2 = b ∧ (b.tryAlloc id bytes).2.streamCount = b.streamCount
  | .release _ _ | .removeStream _ => True

/-- What the other streams have. -/
def othersTotal (b : StreamBudget ι) (id : ι) : ℕ := ((b.inner.others id).rows.map Prod.snd).sum

/-- **The calls that keep the tracker accounted for**: an allocation for a stream that is not tracked
is of some bytes, which are within the limit; and one that is accepted leaves a total of 64 bits. -/
def Accountable (b : StreamBudget ι) : Event ι → Prop
  | .tryAlloc id bytes =>
      (b.inner.find? id = none → 0 < bytes ∧ saturated 64 bytes ≤ b.maxPerStream) ∧
        (b.newTotal id bytes ≤ b.maxPerStream → othersTotal b id + b.newTotal id bytes < 2 ^ 64)
  | .release _ _ | .removeStream _ => True

/-! ### What changes an entry -/

section Entries

variable {build : Build} {b : StreamBudget ι} {id : ι} {bytes n : ℕ}

omit [ToString ι] in
/-- The entry that an allocation makes is replaced. -/
theorem entry_upsert (b : StreamBudget ι) (id : ι) (n : ℕ) :
    (b.entry id).upsert (id, n) = b.inner.upsert (id, n) := by
  unfold StreamBudget.entry
  split
  · rfl
  · simp [Table.upsert, Table.insert, Table.others, Table.filter]

omit [ToString ι] in
theorem sum_upsert (b : StreamBudget ι) (id : ι) (n : ℕ) :
    ((b.inner.upsert (id, n)).rows.map Prod.snd).sum = othersTotal b id + n := by
  simp [Table.upsert, Table.insert, othersTotal]

omit [ToString ι] in
theorem allocated_upsert (b : StreamBudget ι) (id id' : ι) (n : ℕ) :
    StreamBudget.allocated { b with inner := b.inner.upsert (id, n) } id' =
      if id = id' then n else b.allocated id' := by
  simp only [StreamBudget.allocated, Table.find?_upsert]
  split <;> rfl

omit [ToString ι] in
/-- **An entry within the limit.** -/
theorem Accounted.put (h : Accounted build b) (hpos : 0 < n) (hmax : n ≤ b.maxPerStream)
    (htotal : othersTotal b id + n < 2 ^ 64) :
    Accounted build { b with inner := b.inner.upsert (id, n) } where
  bounded := by
    intro id'
    rw [allocated_upsert]
    split
    · exact hmax
    · exact h.bounded id'
  total := by
    refine Build.result_eq_self_iff.2 ?_
    rwa [sum_upsert]
  positive := by
    intro r hr
    rcases Table.mem_upsert hr with hr | rfl
    · exact h.positive r hr
    · exact hpos

omit [ToString ι] in
/-- **An entry that is removed.** -/
theorem Accounted.drop (h : Accounted build b) (id : ι) : Accounted build (b.removeStream id) where
  bounded := by
    intro id'
    refine le_trans ?_ (h.bounded id')
    simp only [StreamBudget.removeStream, StreamBudget.allocated, Table.others, Table.find?_filter]
    cases b.inner.find? id' with
    | none => exact Nat.le_refl _
    | some r =>
        cases hne : !decide (r.1 = id) <;> simp [Option.filter, hne]
  total := by
    refine Build.result_eq_self_iff.2 (lt_of_le_of_lt ?_ (Build.result_eq_self_iff.1 h.total))
    exact (List.filter_sublist.map Prod.snd).sum_le_sum fun _ _ => Nat.zero_le _
  positive := fun r hr => h.positive r (Table.mem_filter.1 hr).1

omit [ToString ι] in
/-- What a tracked stream has. -/
theorem allocated_of_find {current : ℕ} {id' : ι} (h : b.inner.find? id = some (id', current)) :
    b.allocated id = current := by
  rw [StreamBudget.allocated, h]
  rfl

omit [ToString ι] in
/-- What a tracked stream has is part of the total. -/
theorem othersTotal_add {current : ℕ} {id' : ι} (h : b.inner.find? id = some (id', current)) :
    othersTotal b id + current = (b.inner.rows.map Prod.snd).sum := Table.sum_others (f := Prod.snd) h

omit [ToString ι] in
/-- **A release.** -/
theorem Accounted.release (h : Accounted build b) (id : ι) (bytes : ℕ) :
    Accounted build (b.release id bytes) := by
  unfold StreamBudget.release
  split
  · exact h
  · next id' current hfind =>
      split
      · exact h.drop id
      · next hne =>
          have hle := Nat.sub_le current bytes
          have hmax := h.bounded id
          have hsum : (b.inner.rows.map Prod.snd).sum < 2 ^ 64 := Build.result_eq_self_iff.1 h.total
          rw [← othersTotal_add hfind] at hsum
          rw [allocated_of_find hfind] at hmax
          exact h.put (Nat.pos_of_ne_zero hne) (hle.trans hmax)
            (lt_of_le_of_lt (Nat.add_le_add_left hle _) hsum)

/-- **An allocation that is accepted.** -/
theorem tryAlloc_of_le (h : b.newTotal id bytes ≤ b.maxPerStream) :
    b.tryAlloc id bytes = (.ok (), { b with inner := b.inner.upsert (id, b.newTotal id bytes) }) := by
  rw [StreamBudget.tryAlloc, if_neg (Nat.not_lt.2 h), entry_upsert]

/-- **An allocation that is refused.** -/
theorem tryAlloc_of_lt (h : b.maxPerStream < b.newTotal id bytes) :
    b.tryAlloc id bytes = (.error ("503: Per-stream memory budget exceeded for stream " ++ toString id),
      { b with inner := b.entry id }) := if_pos h

omit [ToString ι] in
theorem entry_of_some {r : ι × ℕ} (h : b.inner.find? id = some r) : b.entry id = b.inner := by
  obtain ⟨hmem, hid⟩ := Table.find?_eq_some_iff.1 h
  exact dif_pos (hid ▸ List.mem_map_of_mem hmem)

omit [ToString ι] in
theorem newTotal_of_none (h : b.inner.find? id = none) : b.newTotal id bytes = saturated 64 bytes := by
  rw [StreamBudget.newTotal, StreamBudget.allocated, h]
  exact congrArg _ (Nat.zero_add bytes)

omit [ToString ι] in
theorem saturated_pos (h : 0 < n) : 0 < saturated 64 n := by
  unfold saturated
  omega

end Entries

/-! ### One call -/

variable {build : Build} {b b' : StreamBudget ι} {e : Event ι}

/-- An allocation that keeps the tracker accounted for is refused only for a stream that is tracked. -/
theorem refusesCleanly_of_accountable (he : Accountable b e) : RefusesCleanly b e := by
  cases e with
  | tryAlloc id bytes =>
      intro err herr
      cases hfind : b.inner.find? id with
      | none =>
          rw [tryAlloc_of_le (by rw [newTotal_of_none hfind]; exact (he.1 hfind).2)] at herr
          cases herr
      | some r =>
          by_cases hle : b.newTotal id bytes ≤ b.maxPerStream
          · rw [tryAlloc_of_le hle] at herr
            cases herr
          · rw [tryAlloc_of_lt (Nat.lt_of_not_le hle), entry_of_some hfind]
            exact ⟨rfl, rfl⟩
  | release id bytes => trivial
  | removeStream id => trivial

/-- **One call that keeps the tracker accounted for.** -/
theorem accounted_step (h : Accounted build b) (he : Accountable b e) (hstep : step b e = some b') :
    Accounted build b' := by
  cases e with
  | tryAlloc id bytes =>
      cases hstep
      by_cases hle : b.newTotal id bytes ≤ b.maxPerStream
      · rw [tryAlloc_of_le hle]
        refine h.put ?_ hle (he.2 hle)
        cases hfind : b.inner.find? id with
        | none =>
            rw [newTotal_of_none hfind]
            exact saturated_pos (he.1 hfind).1
        | some r =>
            have hpos := h.positive r (Table.find?_eq_some_iff.1 hfind).1
            refine saturated_pos (Nat.lt_of_lt_of_le hpos ?_)
            rw [allocated_of_find hfind]
            exact Nat.le_add_right r.2 bytes
      · cases hfind : b.inner.find? id with
        | none =>
            refine absurd ?_ hle
            rw [newTotal_of_none hfind]
            exact (he.1 hfind).2
        | some r =>
            rw [tryAlloc_of_lt (Nat.lt_of_not_le hle), entry_of_some hfind]
            exact h
  | release id bytes =>
      cases hstep
      exact h.release id bytes
  | removeStream id =>
      cases hstep
      exact h.drop id

/-- **And no other call does.** -/
theorem accountable_of_accounted (hclean : RefusesCleanly b e)
    (h : ∀ b', step b e = some b' → Accounted build b') : Accountable b e := by
  cases e with
  | tryAlloc id bytes =>
      refine ⟨fun hfind => ⟨?_, ?_⟩, fun hle => ?_⟩
      · by_contra hzero
        obtain rfl : bytes = 0 := Nat.eq_zero_of_not_pos hzero
        have hnew : b.newTotal id 0 = 0 := newTotal_of_none hfind
        have hacc := h _ rfl
        rw [tryAlloc_of_le (by rw [hnew]; exact Nat.zero_le _), hnew] at hacc
        exact absurd (hacc.positive (id, 0) (Table.mem_upsert_self _ _)) (Nat.lt_irrefl 0)
      · by_contra hlt
        rw [← newTotal_of_none hfind, Nat.not_le] at hlt
        have hcount := (hclean _ (by rw [tryAlloc_of_lt hlt])).2
        rw [tryAlloc_of_lt hlt] at hcount
        have hentry : b.entry id = b.inner.insert (id, 0) (Table.find?_eq_none_iff.1 hfind) :=
          dif_neg (Table.find?_eq_none_iff.1 hfind)
        simp [StreamBudget.streamCount, hentry] at hcount
      · have hacc := (h _ rfl).total
        rw [tryAlloc_of_le hle] at hacc
        rw [← sum_upsert]
        exact Build.result_eq_self_iff.1 hacc
  | release id bytes => trivial
  | removeStream id => trivial

/-! ### Runs -/

omit [ToString ι] in
theorem accounted_withMaxPerStream (build : Build) (max : ℕ) :
    Accounted build (.withMaxPerStream max : StreamBudget ι) where
  bounded := fun _ => Nat.zero_le _
  total := Build.result_eq_self_iff.2 (Nat.two_pow_pos 64)
  positive := by
    intro r hr
    cases hr

/-- **Which runs are accounted for**: those whose calls all keep the tracker so. -/
theorem accounted_iff (build : Build) (max : ℕ) (events : List (Event ι)) :
    ((∀ b, Passes step (.withMaxPerStream max) events b → Accounted build b) ∧
        ∀ b e, Occurs step (.withMaxPerStream max) events b e → RefusesCleanly b e) ↔
      ∀ b e, Occurs step (.withMaxPerStream max) events b e → Accountable b e := by
  constructor
  · rintro ⟨hacc, hclean⟩ b e hocc
    exact accountable_of_accounted (hclean b e hocc) fun b' hb' => hacc b' (hocc.passes hb')
  · intro h
    refine ⟨fun b hb => ?_, fun b e hocc => refusesCleanly_of_accountable (h b e hocc)⟩
    exact passes_induction (fun u e v hocc hu hv => accounted_step hu (h u e hocc) hv)
      (accounted_withMaxPerStream build max) hb

/-- **A first allocation that is refused leaves an entry that is zero.** -/
theorem not_accounted_of_refused :
    ¬ ((∀ b, Passes step (.withMaxPerStream 10 : StreamBudget ℕ) [.tryAlloc 1 20] b →
          Accounted .checked b) ∧
        ∀ b e, Occurs step (.withMaxPerStream 10 : StreamBudget ℕ) [.tryAlloc 1 20] b e →
          RefusesCleanly b e) := by
  rintro ⟨h, -⟩
  have hacc := h _ ⟨[.tryAlloc 1 20], List.prefix_refl _, rfl⟩
  exact absurd (hacc.positive (1, 0) (List.mem_singleton.2 rfl)) (Nat.lt_irrefl 0)

end Budget

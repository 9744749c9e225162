/-
**The pool of frame buffers.**

`crates/streaming/src/buffer.rs`: buffers that are dropped are kept for later ones, as long as their
capacities together are within a budget.  A buffer that is taken out may grow before it is dropped, or be
taken apart; and a buffer that is dropped while the lock of the pool is held is freed.

What is allocated is a block of addresses, apart from all other blocks that are allocated.  Where a vector
is moved to when it grows, and how much larger than asked for it is allocated, is not known.

Main definitions:

* `BufferPool.Event`, `BufferPool.step` — what can be done with the pool and the live buffers;
* `BufferPool.World.held` — the blocks that the pool and the live buffers have;
* `BufferPool.Inv` — the count of capacities is exact and within the budget, and the blocks are apart.

Main results:

* `BufferPool.swapRemove_perm` — what is taken out of the pool is no longer in it;
* `BufferPool.inv_step` — every event keeps the invariant;
* `BufferPool.pool_exact` — **in every run the count is exact and within the budget, and what is acquired
  is empty, large enough and in no other buffer**.
-/

import Mathlib.Data.List.Perm.Basic
import MibeeEye.AddressSpace
import MibeeEye.FixedWidth
import MibeeEye.StepMachine

set_option relaxedAutoImplicit false
set_option autoImplicit false

namespace BufferPool

open AddressSpace

/-! ### Vectors -/

/-- `Vec<u8>`: its storage and its bytes. -/
structure Vec where
  block : Block
  bytes : List UInt8
  fits : bytes.length ≤ block.capacity
  deriving DecidableEq

/-- `capacity()` -/
def Vec.capacity (v : Vec) : ℕ := v.block.capacity

/-- `Vec::new`, which has no storage. -/
def Vec.empty : Vec := ⟨⟨1, 0, by decide, by decide⟩, [], le_rfl⟩

/-- `clear()` -/
def Vec.clear (v : Vec) : Vec := ⟨v.block, [], Nat.zero_le _⟩

/-- `Vec::swap_remove`: an element is taken out, and the last one comes to its place; `none` is a
panic. -/
def swapRemove {α : Type} (l : List α) (pos : ℕ) : Option (α × List α) :=
  match l[pos]?, l.getLast? with
  | some x, some last => some (x, (l.set pos last).dropLast)
  | _, _ => none

/-! ### The pool and its buffers -/

/-- `PoolInner` -/
structure PoolInner where
  buffers : List Vec
  totalCapacity : ℕ
  deriving DecidableEq

/-- `Buffer`; whether it has a pool it goes back to. -/
structure Buffer where
  pool : Bool
  maxBytes : ℕ
  data : Vec
  deriving DecidableEq

/-- A pool and the live buffers. -/
structure World where
  pool : PoolInner
  maxBytes : ℕ
  live : List Buffer
  deriving DecidableEq

/-- **`BufferPool::new`** -/
def World.new (maxBytes : ℕ) : World := ⟨⟨[], 0⟩, maxBytes, []⟩

/-- `BufferPool::usage`, with the lock free or held by another. -/
def usage (pool : PoolInner) (contended : Bool) : ℕ × ℕ :=
  if contended then (0, 0) else (pool.buffers.length, pool.totalCapacity)

/-- The blocks that are in the pool or in a live buffer. -/
def World.held (w : World) : List Block :=
  w.pool.buffers.map Vec.block ++ w.live.map fun b => b.data.block

/-- **`BufferPool::acquire`**, where `fresh` is what is allocated if no buffer of the pool is large
enough. -/
def acquire (w : World) (maxSize : ℕ) (fresh : Block) : Option World :=
  match w.pool.buffers.findIdx? fun b => decide (maxSize ≤ b.capacity) with
  | some pos =>
    (swapRemove w.pool.buffers pos).map fun (buf, rest) =>
      { w with
        pool := ⟨rest, w.pool.totalCapacity - buf.capacity⟩
        live := w.live ++ [⟨true, w.maxBytes, buf.clear⟩] }
  | none =>
    if maxSize ≤ fresh.capacity ∧ ∀ b ∈ w.held, Apart b fresh then
      some { w with live := w.live ++ [⟨true, w.maxBytes, ⟨fresh, [], Nat.zero_le _⟩⟩] }
    else none

/-- The live buffers without one of them. -/
def World.without (w : World) (i : ℕ) : World := { w with live := w.live.eraseIdx i }

/-- `data()`: the vector of a buffer is changed, and stays in its storage or is moved to one that is
apart from what others hold. -/
def modify (w : World) (i : ℕ) (data : Vec) : Option World :=
  w.live[i]?.bind fun b =>
    if ∀ c ∈ (w.without i).held, Apart c data.block then
      some { w with live := w.live.set i { b with data := data } }
    else none

/-- **`Drop for Buffer`**, of a buffer that is live no longer. -/
def dropBuffer (pool : PoolInner) (b : Buffer) (contended : Bool) : PoolInner :=
  if b.pool then
    if contended then pool
    else
      let wouldBe := FixedWidth.saturated 64 (pool.totalCapacity + b.data.capacity)
      if wouldBe ≤ b.maxBytes then ⟨pool.buffers ++ [b.data], wouldBe⟩ else pool
  else pool

/-- **`Buffer::into_inner`**: the vector, and the world after the buffer is dropped without it and
without a pool. -/
def intoInner (w : World) (i : ℕ) : Option (Vec × World) :=
  w.live[i]?.map fun b =>
    (b.data, { w.without i with
      pool := dropBuffer w.pool { b with data := Vec.empty, pool := false } false })

/-- What can be done. -/
inductive Event
  | acquire (maxSize : ℕ) (fresh : Block)
  | modify (i : ℕ) (data : Vec)
  | intoInner (i : ℕ)
  | drop (i : ℕ) (contended : Bool)

/-- One event; none if it is not possible. -/
def step (w : World) : Event → Option World
  | .acquire maxSize fresh => acquire w maxSize fresh
  | .modify i data => modify w i data
  | .intoInner i => (intoInner w i).map Prod.snd
  | .drop i contended =>
    w.live[i]?.map fun b => { w.without i with pool := dropBuffer w.pool b contended }

/-! ### Taking out of the pool -/

/-- What is taken out and what is left are all there was. -/
theorem swapRemove_perm {α : Type} {l rest : List α} {pos : ℕ} {x : α}
    (h : swapRemove l pos = some (x, rest)) : l[pos]? = some x ∧ l.Perm (x :: rest) := by
  rcases List.eq_nil_or_concat' l with rfl | ⟨front, last, rfl⟩
  · cases h
  · rw [swapRemove, List.getLast?_concat] at h
    cases hx : (front ++ [last])[pos]? with
    | none => rw [hx] at h; cases h
    | some y =>
        rw [hx] at h
        obtain ⟨rfl, rfl⟩ := Prod.mk.inj (Option.some.inj h)
        refine ⟨rfl, ?_⟩
        obtain ⟨hpos, hy⟩ := List.getElem?_eq_some_iff.mp hx
        rcases Nat.lt_or_ge pos front.length with hlt | hge
        · -- the last element takes the place of the one that is taken out
          rw [List.getElem_append_left hlt] at hy
          rw [List.set_append_left _ _ hlt, List.dropLast_concat, ← hy]
          calc List.Perm (front ++ [last]) (last :: front) := List.perm_append_singleton last front
            List.Perm _ (last :: front[pos] :: front.eraseIdx pos) :=
              (List.getElem_cons_eraseIdx_perm hlt).symm.cons last
            List.Perm _ (front[pos] :: last :: front.eraseIdx pos) := .swap ..
            List.Perm _ (front[pos] :: front.set pos last) :=
              (List.set_perm_cons_eraseIdx hlt last).symm.cons _
        · rw [List.length_append, List.length_singleton] at hpos
          obtain rfl : pos = front.length := by omega
          rw [List.getElem_concat_length rfl] at hy
          rw [List.set_append_right _ _ hge, Nat.sub_self, List.set_cons_zero, List.dropLast_concat,
            ← hy]
          exact List.perm_append_singleton last front

theorem exists_swapRemove {α : Type} {l : List α} {pos : ℕ} (h : pos < l.length) :
    ∃ r, swapRemove l pos = some r := by
  have hne : l ≠ [] := List.ne_nil_of_length_pos (Nat.zero_lt_of_lt h)
  rw [swapRemove, List.getElem?_eq_getElem h, List.getLast?_eq_some_getLast hne]
  exact ⟨_, rfl⟩

/-! ### The invariant -/

/-- The capacities of some vectors together. -/
def capacities (vs : List Vec) : ℕ := (vs.map Vec.capacity).sum

/-- The count is that of the buffers of the pool and within the budget, what is held is apart, and the live
buffers go back to the pool. -/
structure Inv (w : World) : Prop where
  exact : w.pool.totalCapacity = capacities w.pool.buffers
  budget : w.pool.totalCapacity ≤ w.maxBytes
  apart : w.held.Pairwise Apart
  owned : ∀ b ∈ w.live, b.pool = true ∧ b.maxBytes = w.maxBytes

theorem capacities_perm {vs ws : List Vec} (h : vs.Perm ws) : capacities vs = capacities ws :=
  (h.map Vec.capacity).sum_eq

@[simp] theorem capacities_cons (v : Vec) (vs : List Vec) :
    capacities (v :: vs) = v.capacity + capacities vs := List.sum_cons

theorem inv_new (maxBytes : ℕ) : Inv (World.new maxBytes) :=
  ⟨rfl, Nat.zero_le _, .nil, fun _ h => absurd h List.not_mem_nil⟩

/-- Being apart does not depend on the order. -/
theorem pairwise_perm {bs cs : List Block} (h : bs.Perm cs) (hbs : bs.Pairwise Apart) :
    cs.Pairwise Apart :=
  (h.pairwise_iff fun hab => hab.symm).mp hbs

/-- What is held is what a live buffer holds and what the others hold. -/
theorem held_perm {w : World} {i : ℕ} {b : Buffer} (h : w.live[i]? = some b) :
    w.held.Perm (b.data.block :: (w.without i).held) := by
  obtain ⟨hi, rfl⟩ := List.getElem?_eq_some_iff.mp h
  have hlive := ((List.getElem_cons_eraseIdx_perm hi).symm.map fun b : Buffer => b.data.block)
  exact (hlive.append_left _).trans List.perm_middle

theorem capacities_eq (vs : List Vec) : capacities vs = ((vs.map Vec.block).map Block.capacity).sum := by
  rw [capacities, List.map_map]
  rfl

/-- A buffer and the pool fit into the address space together. -/
theorem Inv.sum_lt {w : World} (hw : Inv w) {i : ℕ} {b : Buffer} (h : w.live[i]? = some b) :
    w.pool.totalCapacity + b.data.capacity < 2 ^ 64 := by
  have hsub : List.Sublist (b.data.block :: w.pool.buffers.map Vec.block)
      (b.data.block :: (w.without i).held) :=
    .cons_cons _ (List.sublist_append_left _ _)
  have hlt := sum_capacity_lt ((pairwise_perm (held_perm h) hw.apart).sublist hsub)
  rw [List.map_cons, List.sum_cons, ← capacities_eq] at hlt
  rw [hw.exact, Nat.add_comm]
  exact hlt

/-! ### Events -/

/-- What is acquired: a block of the pool, or one that is allocated. -/
theorem acquire_cases {w w' : World} {maxSize : ℕ} {fresh : Block}
    (h : acquire w maxSize fresh = some w') :
    (∃ buf rest, w.pool.buffers.Perm (buf :: rest) ∧ maxSize ≤ buf.capacity ∧
      w' = { w with
        pool := ⟨rest, w.pool.totalCapacity - buf.capacity⟩
        live := w.live ++ [⟨true, w.maxBytes, buf.clear⟩] }) ∨
    (maxSize ≤ fresh.capacity ∧ (∀ b ∈ w.held, Apart b fresh) ∧
      w' = { w with live := w.live ++ [⟨true, w.maxBytes, ⟨fresh, [], Nat.zero_le _⟩⟩] }) := by
  unfold acquire at h
  cases hpos : w.pool.buffers.findIdx? fun b => decide (maxSize ≤ b.capacity) with
  | some pos =>
      rw [hpos] at h
      obtain ⟨⟨buf, rest⟩, hswap, rfl⟩ := Option.map_eq_some_iff.mp h
      obtain ⟨hget, hperm⟩ := swapRemove_perm hswap
      obtain ⟨hlt, hcap, -⟩ := List.findIdx?_eq_some_iff_getElem.mp hpos
      rw [List.getElem?_eq_getElem hlt] at hget
      rw [Option.some.inj hget] at hcap
      exact .inl ⟨buf, rest, hperm, of_decide_eq_true hcap, rfl⟩
  | none =>
      rw [hpos] at h
      by_cases hfresh : maxSize ≤ fresh.capacity ∧ ∀ b ∈ w.held, Apart b fresh
      · rw [if_pos hfresh] at h
        exact .inr ⟨hfresh.1, hfresh.2, (Option.some.inj h).symm⟩
      · rw [if_neg hfresh] at h
        cases h

/-- One more live buffer, at the end of what is held. -/
theorem held_live_concat (pool : PoolInner) (maxBytes : ℕ) (live : List Buffer) (b : Buffer) :
    World.held ⟨pool, maxBytes, live ++ [b]⟩ = World.held ⟨pool, maxBytes, live⟩ ++ [b.data.block] := by
  simp [World.held]

theorem inv_acquire {w w' : World} {maxSize : ℕ} {fresh : Block} (hw : Inv w)
    (h : acquire w maxSize fresh = some w') : Inv w' := by
  have howned : ∀ v : Vec, ∀ b ∈ w.live ++ [⟨true, w.maxBytes, v⟩],
      b.pool = true ∧ b.maxBytes = w.maxBytes := fun v b hb => by
    rcases List.mem_append.mp hb with hb | hb
    · exact hw.owned b hb
    · rw [List.mem_singleton.mp hb]
      exact ⟨rfl, rfl⟩
  obtain ⟨buf, rest, hperm, -, rfl⟩ | ⟨-, hapart, rfl⟩ := acquire_cases h
  · have hsum : w.pool.totalCapacity = buf.capacity + capacities rest := by
      rw [hw.exact, capacities_perm hperm, capacities_cons]
    have hexact : w.pool.totalCapacity - buf.capacity = capacities rest := by omega
    refine ⟨hexact, (Nat.sub_le _ _).trans hw.budget, ?_, howned _⟩
    -- the block only moves to the end of what is held
    refine pairwise_perm ?_ hw.apart
    rw [held_live_concat]
    calc List.Perm w.held ((buf :: rest).map Vec.block ++ w.live.map fun b => b.data.block) :=
        (hperm.map _).append_right _
      List.Perm _ ((rest.map Vec.block ++ w.live.map fun b => b.data.block) ++ [buf.block]) :=
        (List.perm_append_singleton _ _).symm
  · refine ⟨hw.exact, hw.budget, ?_, howned _⟩
    rw [held_live_concat]
    refine List.pairwise_append.mpr ⟨hw.apart, List.pairwise_singleton _ _, fun b hb c hc => ?_⟩
    rw [List.mem_singleton.mp hc]
    exact hapart b hb

/-- A world without one of its live buffers. -/
theorem Inv.without {w : World} (hw : Inv w) (i : ℕ) : Inv (w.without i) :=
  ⟨hw.exact, hw.budget,
    hw.apart.sublist ((List.Sublist.refl _).append ((List.eraseIdx_sublist w.live i).map _)),
    fun b hb => hw.owned b (List.mem_of_mem_eraseIdx hb)⟩

theorem inv_modify {w w' : World} {i : ℕ} {data : Vec} (hw : Inv w)
    (h : modify w i data = some w') : Inv w' := by
  obtain ⟨b, hb, h⟩ := Option.bind_eq_some_iff.mp h
  by_cases hapart : ∀ c ∈ (w.without i).held, Apart c data.block
  · rw [if_pos hapart] at h
    cases h
    obtain ⟨hi, hbi⟩ := List.getElem?_eq_some_iff.mp hb
    refine ⟨hw.exact, hw.budget, ?_, fun c hc => ?_⟩
    · have hlive := (List.set_perm_cons_eraseIdx hi { b with data := data }).map
        fun b : Buffer => b.data.block
      have hperm : List.Perm (data.block :: (w.without i).held)
          (World.held { w with live := w.live.set i { b with data := data } }) :=
        (List.perm_middle.symm).trans (hlive.symm.append_left _)
      refine pairwise_perm hperm (List.pairwise_cons.mpr ⟨fun c hc => (hapart c hc).symm, ?_⟩)
      exact (hw.without i).apart
    · rcases List.mem_or_eq_of_mem_set hc with hc | rfl
      · exact hw.owned c hc
      · exact hw.owned b (hbi ▸ List.getElem_mem hi)
  · rw [if_neg hapart] at h
    cases h

theorem inv_drop {w : World} {i : ℕ} {b : Buffer} (hw : Inv w) (hb : w.live[i]? = some b)
    (contended : Bool) : Inv { w.without i with pool := dropBuffer w.pool b contended } := by
  have hwithout := hw.without i
  obtain ⟨hi, hbi⟩ := List.getElem?_eq_some_iff.mp hb
  have hmax : b.maxBytes = w.maxBytes := (hw.owned b (hbi ▸ List.getElem_mem hi)).2
  have hsat : FixedWidth.saturated 64 (w.pool.totalCapacity + b.data.capacity) =
      w.pool.totalCapacity + b.data.capacity := FixedWidth.saturated_eq (hw.sum_lt hb)
  unfold dropBuffer
  simp only [hsat, hmax]
  split
  · split
    · exact hwithout
    · split
      · next hle =>
          -- the buffer is pushed, and what it held is held by the pool
          refine ⟨?_, hle, ?_, hwithout.owned⟩
          · change _ = capacities (w.pool.buffers ++ [b.data])
            rw [capacities_perm (List.perm_append_singleton b.data _), capacities_cons, hw.exact,
              Nat.add_comm]
          · refine pairwise_perm ((held_perm hb).trans ?_) hw.apart
            change List.Perm _ ((w.pool.buffers ++ [b.data]).map Vec.block ++ _)
            rw [List.map_append, List.append_assoc]
            exact List.perm_middle.symm
      · exact hwithout
  · exact hwithout

/-- Every event keeps the invariant. -/
theorem inv_step {w w' : World} {e : Event} (hw : Inv w) (h : step w e = some w') : Inv w' := by
  cases e with
  | acquire maxSize fresh => exact inv_acquire hw h
  | modify i data => exact inv_modify hw h
  | intoInner i =>
      obtain ⟨⟨v, u⟩, hinner, rfl⟩ := Option.map_eq_some_iff.mp h
      obtain ⟨b, -, hvu⟩ := Option.map_eq_some_iff.mp hinner
      cases hvu
      exact hw.without i
  | drop i contended =>
      obtain ⟨b, hb, rfl⟩ := Option.map_eq_some_iff.mp h
      exact inv_drop hw hb contended

/-- No event changes the budget. -/
theorem maxBytes_step {w w' : World} {e : Event} (h : step w e = some w') :
    w'.maxBytes = w.maxBytes := by
  cases e with
  | acquire maxSize fresh =>
      obtain ⟨buf, rest, -, -, rfl⟩ | ⟨-, -, rfl⟩ := acquire_cases h <;> rfl
  | modify i data =>
      obtain ⟨b, -, h⟩ := Option.bind_eq_some_iff.mp h
      split at h
      · cases h
        rfl
      · cases h
  | intoInner i =>
      obtain ⟨⟨v, u⟩, hinner, rfl⟩ := Option.map_eq_some_iff.mp h
      obtain ⟨b, -, hvu⟩ := Option.map_eq_some_iff.mp hinner
      cases hvu
      rfl
  | drop i contended =>
      obtain ⟨b, -, rfl⟩ := Option.map_eq_some_iff.mp h
      rfl

/-! ### Runs -/

/-- The invariant holds in every run, with the budget the pool was made with. -/
theorem inv_exec {maxBytes : ℕ} {events : List Event} {w : World}
    (h : Machine.exec step (World.new maxBytes) events = some w) : w.maxBytes = maxBytes ∧ Inv w :=
  Machine.exec_invariant (I := fun w => w.maxBytes = maxBytes ∧ Inv w) (P := fun _ => True)
    (fun _ _ _ _ hs ht => ⟨(maxBytes_step ht).trans hs.1, inv_step hs.2 ht⟩) (fun _ _ => trivial)
    ⟨rfl, inv_new maxBytes⟩ h

/-- Where a large enough block that is apart from all others can be allocated, something is acquired. -/
theorem exists_acquire (w : World) {maxSize : ℕ} {fresh : Block} (hsize : maxSize ≤ fresh.capacity)
    (hapart : ∀ b ∈ w.held, Apart b fresh) : ∃ w', acquire w maxSize fresh = some w' := by
  unfold acquire
  cases hpos : w.pool.buffers.findIdx? fun b => decide (maxSize ≤ b.capacity) with
  | some pos =>
      obtain ⟨r, hr⟩ := exists_swapRemove (List.findIdx?_eq_some_iff_getElem.mp hpos).1
      exact ⟨_, congrArg (Option.map _) hr⟩
  | none => exact ⟨_, if_pos ⟨hsize, hapart⟩⟩

/-- In every run the count of capacities is that of the buffers of the pool and within the budget, which is
what is reported while the lock is free; and what is acquired then is an empty buffer that is as large as
asked for, with storage that is apart from that of every other live buffer. -/
theorem pool_exact {maxBytes : ℕ} {events : List Event} {w : World}
    (h : Machine.exec step (World.new maxBytes) events = some w) :
    w.pool.totalCapacity = (w.pool.buffers.map Vec.capacity).sum ∧
    w.pool.totalCapacity ≤ maxBytes ∧
    usage w.pool false = (w.pool.buffers.length, (w.pool.buffers.map Vec.capacity).sum) ∧
    ∀ (maxSize : ℕ) (fresh : Block), maxSize ≤ fresh.capacity → (∀ b ∈ w.held, Apart b fresh) →
      ∃ w' b, acquire w maxSize fresh = some w' ∧ w'.live = w.live ++ [b] ∧ b.data.bytes = [] ∧
        maxSize ≤ b.data.capacity ∧ ∀ c ∈ w.live, Apart c.data.block b.data.block := by
  obtain ⟨hmax, hw⟩ := inv_exec h
  refine ⟨hw.exact, hmax ▸ hw.budget, congrArg _ hw.exact, fun maxSize fresh hsize hapart => ?_⟩
  obtain ⟨w', hw'⟩ := exists_acquire w hsize hapart
  -- the new buffer is the last of what is held
  have hnew := (inv_acquire hw hw').apart
  obtain ⟨buf, rest, -, hcap, rfl⟩ | ⟨hcap, -, rfl⟩ := acquire_cases hw' <;>
    refine ⟨_, _, hw', rfl, rfl, hcap, fun c hc => ?_⟩ <;>
    rw [held_live_concat] at hnew <;>
    exact (List.pairwise_append.mp hnew).2.2 _
      (List.mem_append_right _ (List.mem_map_of_mem hc)) _ (List.mem_singleton.mpr rfl)

/-- A buffer is acquired, grows beyond its storage and is dropped. -/
def growing : List Event :=
  [.acquire 4 ⟨16, 4, by decide, by decide⟩,
    .modify 0 ⟨⟨32, 8, by decide, by decide⟩, [1, 2, 3, 4, 5], by decide⟩, .drop 0 false]

/-- The pool counts what the buffer has grown to. -/
theorem pool_exact_growing :
    ∃ w, Machine.exec step (World.new 16) growing = some w ∧ w.pool.totalCapacity = 8 ∧
      w.pool.totalCapacity = (w.pool.buffers.map Vec.capacity).sum :=
  ⟨⟨⟨[⟨⟨32, 8, by decide, by decide⟩, [1, 2, 3, 4, 5], by decide⟩], 8⟩, 16, []⟩, by decide, rfl,
    (@pool_exact 16 growing _ (by decide)).1⟩

end BufferPool

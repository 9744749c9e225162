/-
**Memory in blocks.**

Memory is allocated in blocks of addresses of 64 bits, none of which is null.  Blocks that are allocated
at the same time have no address in common, so together they are no larger than the address space.

Main definitions:

* `AddressSpace.Block` — a block of addresses;
* `AddressSpace.Apart` — blocks with no common address.

Main results:

* `AddressSpace.apart_iff_disjoint` — blocks are apart if they have no common address;
* `AddressSpace.sum_capacity_lt` — blocks that are apart fit into the address space together.
-/

import Mathlib.Algebra.Order.Ring.Nat
import Mathlib.Data.Finset.Lattice.Basic
import Mathlib.Order.Interval.Finset.Nat

set_option relaxedAutoImplicit false
set_option autoImplicit false

namespace AddressSpace

/-- A block of addresses of 64 bits, which are not null. -/
structure Block where
  start : ℕ
  capacity : ℕ
  start_pos : 0 < start
  fits : start + capacity ≤ 2 ^ 64
  deriving DecidableEq

/-- The addresses of a block. -/
def Block.addresses (b : Block) : Finset ℕ := Finset.Ico b.start (b.start + b.capacity)

/-- Blocks with no common address: one is empty, or ends before the other. -/
def Apart (a b : Block) : Prop :=
  a.capacity = 0 ∨ b.capacity = 0 ∨ a.start + a.capacity ≤ b.start ∨ b.start + b.capacity ≤ a.start

instance (a b : Block) : Decidable (Apart a b) :=
  inferInstanceAs (Decidable (a.capacity = 0 ∨ b.capacity = 0 ∨
    a.start + a.capacity ≤ b.start ∨ b.start + b.capacity ≤ a.start))

theorem Apart.symm {a b : Block} (h : Apart a b) : Apart b a := by
  unfold Apart at *
  omega

theorem apart_iff_disjoint {a b : Block} : Apart a b ↔ Disjoint a.addresses b.addresses := by
  rw [Block.addresses, Block.addresses, Finset.disjoint_left]
  constructor
  · intro h x ha hb
    rw [Finset.mem_Ico] at ha hb
    unfold Apart at h
    omega
  · intro h
    by_contra hne
    unfold Apart at hne
    -- the later one of the two starts is in both
    refine h (a := max a.start b.start) ?_ ?_ <;> rw [Finset.mem_Ico] <;> omega

/-- The addresses of some blocks. -/
@[grind =] def addresses : List Block → Finset ℕ
  | [] => ∅
  | b :: bs => b.addresses ∪ addresses bs

theorem card_addresses (b : Block) : b.addresses.card = b.capacity := by
  rw [Block.addresses, Nat.card_Ico, Nat.add_sub_cancel_left]

/-- A block that is apart from each of some blocks is apart from all of them. -/
theorem disjoint_addresses {b : Block} {bs : List Block} (h : ∀ c ∈ bs, Apart b c) :
    Disjoint b.addresses (addresses bs) := by
  induction bs with
  | nil => exact Finset.disjoint_empty_right _
  | cons c bs ih =>
      exact Finset.disjoint_union_right.mpr
        ⟨apart_iff_disjoint.mp (h c List.mem_cons_self), ih fun d hd => h d (List.mem_cons_of_mem c hd)⟩

/-- All addresses are above null and have 64 bits. -/
theorem addresses_subset (bs : List Block) : addresses bs ⊆ Finset.Ico 1 (2 ^ 64) := by
  induction bs with
  | nil => exact Finset.empty_subset _
  | cons b bs ih =>
      exact Finset.union_subset (Finset.Ico_subset_Ico b.start_pos b.fits) ih

/-- Blocks that are apart have as many addresses as they are large. -/
theorem card_addresses_eq_sum {bs : List Block} (h : bs.Pairwise Apart) :
    (addresses bs).card = (bs.map Block.capacity).sum := by
  induction bs with
  | nil => rfl
  | cons b bs ih =>
      obtain ⟨hb, hbs⟩ := List.pairwise_cons.mp h
      rw [addresses, Finset.card_union_of_disjoint (disjoint_addresses hb), card_addresses, ih hbs,
        List.map_cons, List.sum_cons]

/-- **Blocks that are apart fit into the address space together.** -/
theorem sum_capacity_lt {bs : List Block} (h : bs.Pairwise Apart) :
    (bs.map Block.capacity).sum < 2 ^ 64 := by
  have hcard := Finset.card_le_card (addresses_subset bs)
  rw [card_addresses_eq_sum h, Nat.card_Ico] at hcard
  omega

end AddressSpace

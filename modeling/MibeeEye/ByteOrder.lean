/-
**Fixed-width byte encodings of natural numbers.**

A wire format writes an integer as a fixed number of bytes, most significant first (big-endian,
network order) or least significant first (little-endian).  This module has both encodings for an
arbitrary width, as functions between natural numbers and lists of bytes; a number too large for
the width loses its high digits, which is what a cast to a machine integer of that width does.

Main definitions:

* `Wire.leBytes`, `Wire.ofLe` — the little-endian encoding and its reading;
* `Wire.beBytes`, `Wire.ofBe` — the big-endian ones;
* `Wire.slice` — a range of a byte string.

Main results:

* `Wire.ofLe_leBytes`, `Wire.ofBe_beBytes` — reading back an encoding gives the number modulo
  `256 ^ w`, hence the number itself when it fits (`Wire.ofBe_beBytes_of_lt`);
* `Wire.beBytes_ofBe` — bytes are the encoding of the number they are read as;
* `Wire.toNat_and_mask` — what a mask leaves of a byte.
-/

import Mathlib.Algebra.Order.Ring.Nat
import Mathlib.Tactic.NormNum

set_option relaxedAutoImplicit false
set_option autoImplicit false

namespace Wire

/-! ### Little-endian -/

/-- The `w` bytes of `n`, least significant first. -/
@[grind =] def leBytes : ℕ → ℕ → List UInt8
  | 0, _ => []
  | w + 1, n => UInt8.ofNat n :: leBytes w (n / 256)

/-- The number whose little-endian bytes are given. -/
@[grind =] def ofLe : List UInt8 → ℕ
  | [] => 0
  | b :: l => b.toNat + 256 * ofLe l

@[simp] theorem length_leBytes (w n : ℕ) : (leBytes w n).length = w := by
  induction w generalizing n with
  | zero => rfl
  | succ w ih => simp [leBytes, ih]

theorem ofLe_leBytes (w n : ℕ) : ofLe (leBytes w n) = n % 256 ^ w := by
  induction w generalizing n with
  | zero => simp [leBytes, ofLe, Nat.mod_one]
  | succ w ih =>
      have hb : (UInt8.ofNat n).toNat = n % 256 := by simp
      rw [leBytes, ofLe, ih, hb, pow_succ', Nat.mod_mul]

/-- The bytes of the number read from some bytes are those bytes. -/
theorem leBytes_ofLe (l : List UInt8) : leBytes l.length (ofLe l) = l := by
  induction l with
  | nil => rfl
  | cons b l ih =>
      have hb := b.toNat_lt
      have hlow : UInt8.ofNat (b.toNat + 256 * ofLe l) = b := by
        apply UInt8.toNat_inj.1
        rw [UInt8.toNat_ofNat']
        omega
      have hhigh : (b.toNat + 256 * ofLe l) / 256 = ofLe l := by omega
      rw [List.length_cons, ofLe, leBytes, hlow, hhigh, ih]

theorem ofLe_lt (l : List UInt8) : ofLe l < 256 ^ l.length := by
  induction l with
  | nil => exact Nat.one_pos
  | cons b l ih =>
      have hb := b.toNat_lt
      rw [ofLe, List.length_cons, pow_succ']
      omega

/-! ### Big-endian -/

/-- The `w` bytes of `n`, most significant first. -/
def beBytes (w n : ℕ) : List UInt8 := (leBytes w n).reverse

/-- The number whose big-endian bytes are given. -/
def ofBe (l : List UInt8) : ℕ := ofLe l.reverse

@[simp] theorem length_beBytes (w n : ℕ) : (beBytes w n).length = w := by simp [beBytes]

theorem ofBe_beBytes (w n : ℕ) : ofBe (beBytes w n) = n % 256 ^ w := by
  rw [ofBe, beBytes, List.reverse_reverse, ofLe_leBytes]

/-- A number that fits its width is read back unchanged. -/
theorem ofBe_beBytes_of_lt {w n : ℕ} (h : n < 256 ^ w) : ofBe (beBytes w n) = n := by
  rw [ofBe_beBytes, Nat.mod_eq_of_lt h]

/-- The bytes of the number read from some bytes are those bytes. -/
theorem beBytes_ofBe {w : ℕ} {l : List UInt8} (h : l.length = w) : beBytes w (ofBe l) = l := by
  rw [beBytes, ofBe, ← h, ← List.length_reverse, leBytes_ofLe, List.reverse_reverse]

theorem ofBe_lt (l : List UInt8) : ofBe l < 256 ^ l.length := by
  rw [ofBe, ← List.length_reverse]
  exact ofLe_lt _

theorem ofLe_leBytes_of_lt {w n : ℕ} (h : n < 256 ^ w) : ofLe (leBytes w n) = n := by
  rw [ofLe_leBytes, Nat.mod_eq_of_lt h]

/-! ### Ranges of a byte string -/

/-- The bytes of `l` from position `i` up to, not including, position `j`. -/
def slice (l : List UInt8) (i j : ℕ) : List UInt8 := (l.drop i).take (j - i)

/-! ### Single bytes -/

/-- A property of all bytes holds if it holds of the 256 of them. -/
theorem forall_byte {P : UInt8 → Prop} (h : ∀ n : Fin 256, P (UInt8.ofFin n)) (b : UInt8) : P b :=
  h b.toFin

/-- A mask of `k` low bits leaves the remainder modulo `2 ^ k`. -/
theorem toNat_and_mask {mask : UInt8} {k : ℕ} (hmask : mask.toNat = 2 ^ k - 1) (b : UInt8) :
    (b &&& mask).toNat = b.toNat % 2 ^ k := by
  rw [UInt8.toNat_and, hmask, Nat.and_two_pow_sub_one_eq_mod]

/-- It leaves a byte alone that has no other bits. -/
theorem and_mask_eq {mask b : UInt8} {k : ℕ} (hmask : mask.toNat = 2 ^ k - 1)
    (h : b.toNat < 2 ^ k) : b &&& mask = b := by
  rw [← UInt8.toNat_inj, toNat_and_mask hmask, Nat.mod_eq_of_lt h]

end Wire

/-
**Exp-Golomb codes.**

The variable-length codes of unsigned and signed numbers: `m` zeros, a one, and the `m` low bits of
the number plus one.  A bit string starts with at most one of them, and which one is decided by its
zeros and by the bits after its first one.

Main definitions:

* `ExpGolomb.value`, `ExpGolomb.digits` — the number some bits stand for, and the bits of a number;
* `ExpGolomb.ueCode`, `ExpGolomb.seCode` — the codes;
* `ExpGolomb.leadingZeros` — how many zeros a bit string starts with.

Main results:

* `ExpGolomb.zeros_or_one` — a bit string is made of zeros, or of zeros, a one and a rest;
* `ExpGolomb.ueCode_prefix_iff`, `ExpGolomb.ueCode_unique` — the one code that such a string may
  start with;
* `ExpGolomb.seCode_ofCodeNum` — the signed codes are the unsigned ones under another name.
-/

import Mathlib.Data.List.Infix
import Mathlib.Data.Nat.Log
import Mathlib.Tactic.Ring

set_option relaxedAutoImplicit false
set_option autoImplicit false

namespace ExpGolomb

variable {v z : ℕ} {bs rest w : List Bool}

/-! ### Bits and numbers, the highest bit first -/

/-- The number that some bits stand for. -/
@[grind =] def value : List Bool → ℕ
  | [] => 0
  | b :: bs => b.toNat * 2 ^ bs.length + value bs

/-- The `n` low bits of a number. -/
@[grind =] def digits : ℕ → ℕ → List Bool
  | 0, _ => []
  | n + 1, v => v.testBit n :: digits n v

@[simp] theorem length_digits (n v : ℕ) : (digits n v).length = n := by
  induction n with
  | zero => rfl
  | succ n ih => rw [digits, List.length_cons, ih]

theorem value_lt (bs : List Bool) : value bs < 2 ^ bs.length := by
  induction bs with
  | nil => exact Nat.one_pos
  | cons b bs ih =>
      have hb : b.toNat * 2 ^ bs.length ≤ 2 ^ bs.length := by
        simpa using Nat.mul_le_mul_right (2 ^ bs.length) (Bool.toNat_le b)
      rw [value, List.length_cons, pow_succ]
      omega

/-- One more bit at the end. -/
theorem value_append_singleton (bs : List Bool) (b : Bool) :
    value (bs ++ [b]) = 2 * value bs + b.toNat := by
  induction bs with
  | nil => simp [value]
  | cons c bs ih =>
      rw [List.cons_append, value, ih, value, List.length_append, List.length_singleton, pow_succ]
      ring

/-- The low bits of a number stand for what is left of it. -/
theorem value_digits (n v : ℕ) : value (digits n v) = v % 2 ^ n := by
  induction n with
  | zero => simp [digits, value, Nat.mod_one]
  | succ n ih =>
      rw [digits, value, length_digits, ih, Nat.mod_pow_succ, Nat.toNat_testBit]
      ring

/-- Bits of one length that stand for one number are the same. -/
theorem eq_of_value_eq {cs : List Bool} (hlen : bs.length = cs.length)
    (h : value bs = value cs) : bs = cs := by
  induction bs generalizing cs with
  | nil => exact (List.eq_nil_of_length_eq_zero hlen.symm).symm
  | cons b bs ih =>
      cases cs with
      | nil => simp at hlen
      | cons c cs =>
          have hl : bs.length = cs.length := by simpa using hlen
          have hb := value_lt bs
          have hc := value_lt cs
          rw [value, value, hl] at h
          rw [hl] at hb
          -- the highest bits agree, or the numbers would be a power of two apart
          have hbc : b = c := by
            cases b <;> cases c <;> simp only [Bool.toNat_true, Bool.toNat_false] at h ⊢ <;> omega
          subst hbc
          rw [ih hl (by omega)]

/-! ### The codes -/

/-- The code of an unsigned number. -/
def ueCode (v : ℕ) : List Bool :=
  let m := Nat.log 2 (v + 1)
  List.replicate m false ++ true :: digits m (v + 1 - 2 ^ m)

/-- The unsigned number whose code stands for a signed one. -/
def codeNum (v : ℤ) : ℕ := if 0 < v then (2 * v - 1).toNat else (-2 * v).toNat

/-- The code of a signed number. -/
def seCode (v : ℤ) : List Bool := ueCode (codeNum v)

/-- The signed number that an unsigned one stands for. -/
def ofCodeNum (k : ℕ) : ℤ := if k % 2 = 1 then ((k + 1) / 2 : ℕ) else -((k / 2 : ℕ) : ℤ)

@[simp] theorem codeNum_ofCodeNum (k : ℕ) : codeNum (ofCodeNum k) = k := by
  unfold codeNum ofCodeNum
  split <;> split <;> omega

@[simp] theorem ofCodeNum_codeNum (v : ℤ) : ofCodeNum (codeNum v) = v := by
  unfold codeNum ofCodeNum
  split <;> split <;> omega

/-- **The signed codes are the unsigned ones.** -/
theorem seCode_ofCodeNum (k : ℕ) : seCode (ofCodeNum k) = ueCode k := by
  rw [seCode, codeNum_ofCodeNum]

/-- The signed numbers of a width stand for the unsigned ones of the next. -/
theorem codeNum_lt_iff (n : ℕ) (v : ℤ) : codeNum v < 2 * 2 ^ n - 1 ↔ |v| < 2 ^ n := by
  have hn : 0 < 2 ^ n := Nat.two_pow_pos n
  have hcast : ((2 ^ n : ℕ) : ℤ) = 2 ^ n := Nat.cast_pow 2 n
  rw [abs_lt]
  unfold codeNum
  split <;> omega

/-- The zeros of a code and the bits after its one are equally many. -/
theorem ueCode_eq (v : ℕ) :
    ∃ bs, ueCode v = List.replicate bs.length false ++ true :: bs ∧
      v = 2 ^ bs.length - 1 + value bs := by
  have hle : 2 ^ Nat.log 2 (v + 1) ≤ v + 1 := Nat.pow_log_le_self 2 (by omega)
  have hlt : v + 1 < 2 ^ (Nat.log 2 (v + 1) + 1) := Nat.lt_pow_succ_log_self (by omega) _
  rw [pow_succ] at hlt
  refine ⟨digits (Nat.log 2 (v + 1)) (v + 1 - 2 ^ Nat.log 2 (v + 1)), ?_, ?_⟩
  · rw [length_digits, ueCode]
  · rw [length_digits, value_digits, Nat.mod_eq_of_lt (by omega)]
    omega

/-! ### Zeros, a one, and the rest -/

/-- How many zeros a bit string starts with. -/
def leadingZeros (w : List Bool) : ℕ := (w.takeWhile (! ·)).length

@[simp] theorem leadingZeros_replicate (z : ℕ) : leadingZeros (List.replicate z false) = z := by
  simp [leadingZeros]

@[simp] theorem leadingZeros_one (z : ℕ) (rest : List Bool) :
    leadingZeros (List.replicate z false ++ true :: rest) = z := by
  simp [leadingZeros, List.takeWhile_append_of_pos]

/-- **Every bit string is zeros, or zeros, a one and a rest.** -/
theorem zeros_or_one (w : List Bool) :
    w = List.replicate (leadingZeros w) false ∨
      ∃ rest, w = List.replicate (leadingZeros w) false ++ true :: rest := by
  induction w with
  | nil => exact .inl rfl
  | cons b w ih =>
      cases b with
      | true => exact .inr ⟨w, rfl⟩
      | false =>
          have hz : leadingZeros (false :: w) = leadingZeros w + 1 := by simp [leadingZeros]
          rw [hz, List.replicate_succ]
          rcases ih with h | ⟨rest, h⟩
          · exact .inl (congrArg _ h)
          · exact .inr ⟨rest, congrArg _ h⟩

/-- The zeros before the first one, and the rest, are those of the string. -/
theorem one_inj {y : ℕ} {r s : List Bool}
    (h : List.replicate y false ++ true :: r = List.replicate z false ++ true :: s) :
    y = z ∧ r = s := by
  have hyz : y = z := by simpa using congrArg leadingZeros h
  subst hyz
  simpa using h

/-- Zeros are not the start of a code. -/
theorem not_ueCode_prefix_zeros (v z : ℕ) : ¬ ueCode v <+: List.replicate z false := by
  intro ⟨t, ht⟩
  have hmem : true ∈ List.replicate z false := by rw [← ht]; simp [ueCode]
  simp at hmem

/-- **The one code that a string with a one may start with.** -/
theorem ueCode_prefix_iff (v z : ℕ) (rest : List Bool) :
    ueCode v <+: List.replicate z false ++ true :: rest ↔
      z ≤ rest.length ∧ v = 2 ^ z - 1 + value (rest.take z) := by
  obtain ⟨bs, hcode, hv⟩ := ueCode_eq v
  rw [hcode]
  constructor
  · rintro ⟨t, ht⟩
    rw [List.append_assoc, List.cons_append] at ht
    obtain ⟨rfl, rfl⟩ := one_inj ht
    exact ⟨by simp, by simpa using hv⟩
  · rintro ⟨hz, hvz⟩
    have htake : (rest.take z).length = z := by simpa using hz
    have hlt := value_lt bs
    have hlt' := value_lt (rest.take z)
    rw [htake] at hlt'
    -- both are the number of zeros of the code of v
    have hlen : bs.length = z := by
      have h1 : 2 ^ bs.length ≤ v + 1 := by have := Nat.two_pow_pos bs.length; omega
      have h2 : v + 1 < 2 ^ (bs.length + 1) := by rw [pow_succ]; omega
      have h3 : 2 ^ z ≤ v + 1 := by have := Nat.two_pow_pos z; omega
      have h4 : v + 1 < 2 ^ (z + 1) := by rw [pow_succ]; omega
      have h5 := (Nat.pow_lt_pow_iff_right (a := 2) (by omega)).mp (h1.trans_lt h4)
      have h6 := (Nat.pow_lt_pow_iff_right (a := 2) (by omega)).mp (h3.trans_lt h2)
      omega
    subst hlen
    have hbs : bs = rest.take bs.length := eq_of_value_eq htake.symm (by omega)
    exact ⟨rest.drop bs.length, by
      rw [List.append_assoc, List.cons_append]
      congr 2
      rw [hbs, List.length_take, Nat.min_eq_left hz, List.take_append_drop]⟩

/-- A bit string starts with at most one code. -/
theorem ueCode_unique {u : ℕ} (hv : ueCode v <+: w) (hu : ueCode u <+: w) : v = u := by
  rcases zeros_or_one w with hw | ⟨rest, hw⟩
  · rw [hw] at hv
    exact absurd hv (not_ueCode_prefix_zeros v _)
  · rw [hw, ueCode_prefix_iff] at hv hu
    exact hv.2.trans hu.2.symm

/-- The length of a code, from its zeros. -/
theorem length_ueCode (h : ueCode v <+: List.replicate z false ++ true :: rest) :
    (ueCode v).length = 2 * z + 1 := by
  obtain ⟨bs, hcode, -⟩ := ueCode_eq v
  rw [hcode] at h ⊢
  obtain ⟨t, ht⟩ := h
  rw [List.append_assoc, List.cons_append] at ht
  obtain ⟨rfl, -⟩ := one_inj ht
  simp only [List.length_append, List.length_replicate, List.length_cons]
  omega

end ExpGolomb

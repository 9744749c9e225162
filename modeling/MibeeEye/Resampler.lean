/-
**The resampler of the microphone.**

`crates/capture/src/audio_monitor.rs`: samples come in buffers and are read at the multiples of a
step, between two samples by linear interpolation.  What is not read yet is carried over to the next
buffer, with the position in it; what lies before the position is drained.

Samples, the step and positions are exact rationals.

Main definitions:

* `Resampler.LinearResampler.process` — one buffer;
* `Resampler.Interpolates` — what should come out, by the samples alone;
* `Resampler.Fits` — the next position is no further than the end of the samples.

Main results:

* `Resampler.lt_count_iff` — the positions that can be read;
* `Resampler.Held.process` — what a buffer gives, by the samples so far;
* `Resampler.fits_of_le_two` — with a step of two samples at most the next position always fits;
* `Resampler.processAll_iff` — **exactly when the output does not depend on the buffers**.
-/

import Mathlib.Algebra.Order.Archimedean.Basic
import Mathlib.Algebra.Order.Field.Basic
import Mathlib.Algebra.Order.Floor.Semiring
import Mathlib.Data.Rat.Floor
import Mathlib.Tactic.IntervalCases
import Mathlib.Tactic.Linarith
import Mathlib.Tactic.NormNum
import Mathlib.Tactic.Ring

set_option relaxedAutoImplicit false
set_option autoImplicit false

namespace Resampler

/-! ### The resampler -/

/-- `LinearResampler` -/
structure LinearResampler where
  /-- Input samples per output sample. -/
  step : ℚ
  /-- The read position in `carry`. -/
  pos : ℚ
  /-- Input samples that are not consumed. -/
  carry : List ℚ
  deriving DecidableEq, Repr

/-- **`LinearResampler::new`** -/
def LinearResampler.new (ratio : ℚ) : LinearResampler := ⟨max ratio (1 / 10 ^ 6), 0, []⟩

/-- The `while` loop of `process`, for a number of rounds: what is read and where reading ends; `none`
is an index out of range, or that the rounds are not enough. -/
@[grind =] def readOut (step : ℚ) (carry : List ℚ) (fuel : ℕ) (pos : ℚ) : Option (List ℚ × ℚ) :=
  if pos + 1 < carry.length then
    match fuel with
    | 0 => none
    | fuel + 1 => do
      let k := ⌊pos⌋₊
      let frac := pos - k
      let prev ← carry[k]?
      let cur ← carry[k + 1]?
      let (out, pos) ← readOut step carry fuel (pos + step)
      return ((prev + (cur - prev) * frac) :: out, pos)
  else some ([], pos)

/-- `carry.drain(..drop)`, which panics behind the end. -/
def drain (carry : List ℚ) (drop : ℕ) : Option (List ℚ) :=
  if drop ≤ carry.length then some (carry.drop drop) else none

/-- **`LinearResampler::process`**: one buffer; `none` is a panic. -/
def LinearResampler.process (r : LinearResampler) (input : List ℚ) :
    Option (LinearResampler × List ℚ) :=
  if input.isEmpty then some (r, [])
  else do
    let carry := r.carry ++ input
    let (out, pos) ← readOut r.step carry ⌈carry.length / r.step⌉₊ r.pos
    let drop := ⌊pos⌋₊
    let carry ← drain carry drop
    return ({ r with carry := carry, pos := pos - drop }, out)

/-- Successive buffers, with what each gives. -/
@[grind =] def processAll (r : LinearResampler) : List (List ℚ) → Option (List (List ℚ))
  | [] => some []
  | input :: inputs => do
    let (r, out) ← r.process input
    let outs ← processAll r inputs
    return out :: outs

/-! ### What should come out -/

/-- The samples at a position, by linear interpolation. -/
def interpAt (x : List ℚ) (p : ℚ) : ℚ :=
  x.getD ⌊p⌋₊ 0 + (x.getD (⌊p⌋₊ + 1) 0 - x.getD ⌊p⌋₊ 0) * (p - ⌊p⌋₊)

/-- The samples at the multiples of the ratio, for exactly those that lie before the last sample. -/
def Interpolates (ratio : ℚ) (x out : List ℚ) : Prop :=
  (∀ k : ℕ, k < out.length ↔ k * ratio + 1 < x.length) ∧
  ∀ (k : ℕ) (v : ℚ), out[k]? = some v → v = interpAt x (k * ratio)

/-- How many multiples of the ratio can be read of `n` samples. -/
def count (ratio : ℚ) (n : ℕ) : ℕ := ⌈((n : ℚ) - 1) / ratio⌉₊

/-- The place of the next read position. -/
def place (ratio : ℚ) (n : ℕ) : ℕ := ⌊count ratio n * ratio⌋₊

/-- The next read position is no further than the end of `n` samples. -/
def Fits (ratio : ℚ) (n : ℕ) : Prop := place ratio n ≤ n

instance (ratio : ℚ) (n : ℕ) : Decidable (Fits ratio n) :=
  inferInstanceAs (Decidable (place ratio n ≤ n))

variable {ratio : ℚ}

theorem lt_count_iff (h : 0 < ratio) (n k : ℕ) : k < count ratio n ↔ k * ratio + 1 < n := by
  rw [count, Nat.lt_ceil, lt_div_iff₀ h, lt_sub_iff_add_lt]

theorem count_mono (h : 0 < ratio) {m n : ℕ} (hmn : m ≤ n) : count ratio m ≤ count ratio n :=
  Nat.ceil_mono (div_le_div_of_nonneg_right (sub_le_sub_right (Nat.cast_le.mpr hmn) 1) h.le)

theorem place_mono (h : 0 < ratio) {m n : ℕ} (hmn : m ≤ n) : place ratio m ≤ place ratio n :=
  Nat.floor_mono (mul_le_mul_of_nonneg_right (Nat.cast_le.mpr (count_mono h hmn)) h.le)

@[simp] theorem count_zero (h : 0 < ratio) : count ratio 0 = 0 := by
  rw [count, Nat.ceil_eq_zero]
  exact div_nonpos_of_nonpos_of_nonneg (by norm_num) h.le

/-- Before any sample nothing can be read, and the position is at the beginning. -/
theorem place_zero (h : 0 < ratio) : place ratio 0 = 0 := by
  rw [place, count_zero h]
  simp

/-- With a step of two samples at most the next position fits. -/
theorem fits_of_le_two (h : 0 < ratio) (hle : ratio ≤ 2) (n : ℕ) : Fits ratio n := by
  rw [Fits, place, ← Nat.lt_add_one_iff, Nat.floor_lt (by positivity)]
  by_cases hc : count ratio n = 0
  · rw [hc]
    push_cast
    have hn : (0 : ℚ) ≤ n := Nat.cast_nonneg n
    linarith
  · -- the position before was read
    obtain ⟨k, hk⟩ := Nat.exists_eq_succ_of_ne_zero hc
    have hread : (k : ℚ) * ratio + 1 < n := (lt_count_iff h n k).mp (by omega)
    rw [hk]
    push_cast
    linarith

/-! ### The loop -/

section Loop

variable {step pos : ℚ} {carry : List ℚ} {fuel : ℕ}

/-- The loop ends where the next sample is not there. -/
theorem readOut_of_not_lt (h : ¬ pos + 1 < carry.length) :
    readOut step carry fuel pos = some ([], pos) := by
  rw [readOut.eq_def, if_neg h]

/-- One round of the loop reads between two samples. -/
theorem readOut_of_lt (h : pos + 1 < carry.length) {prev cur : ℚ}
    (hprev : carry[⌊pos⌋₊]? = some prev) (hcur : carry[⌊pos⌋₊ + 1]? = some cur) :
    readOut step carry (fuel + 1) pos = (readOut step carry fuel (pos + step)).map fun r =>
      ((prev + (cur - prev) * (pos - ⌊pos⌋₊)) :: r.1, r.2) := by
  rw [readOut.eq_def, if_pos h]
  simp only [hprev, hcur, Option.bind_eq_bind, Option.bind_some]
  cases readOut step carry fuel (pos + step) <;> rfl

end Loop

/-- The outputs from the `m`th one up to the `n`th. -/
def outputs (ratio : ℚ) (x : List ℚ) (m n : ℕ) : List ℚ :=
  (List.range' m (n - m)).map fun k : ℕ => interpAt x (k * ratio)

theorem outputs_self (x : List ℚ) (n : ℕ) : outputs ratio x n n = [] := by
  rw [outputs, Nat.sub_self]
  rfl

theorem outputs_of_lt (x : List ℚ) {m n : ℕ} (h : m < n) :
    outputs ratio x m n = interpAt x (m * ratio) :: outputs ratio x (m + 1) n := by
  rw [outputs, outputs, show n - m = n - (m + 1) + 1 by omega, List.range'_succ, List.map_cons]

/-- The samples at a position before the last one. -/
theorem interpAt_eq {x : List ℚ} {p prev cur : ℚ} (hprev : x[⌊p⌋₊]? = some prev)
    (hcur : x[⌊p⌋₊ + 1]? = some cur) : interpAt x p = prev + (cur - prev) * (p - ⌊p⌋₊) := by
  rw [interpAt, List.getD_eq_getElem?_getD, List.getD_eq_getElem?_getD, hprev, hcur]
  rfl

/-- One round at the `k`th position, of the samples behind `base`. -/
theorem readOut_position {x : List ℚ} {base fuel k : ℕ} (h : 0 < ratio) (hbase : base ≤ x.length)
    (hk : base ≤ ⌊(k : ℚ) * ratio⌋₊) (hlt : k < count ratio x.length) :
    readOut ratio (x.drop base) (fuel + 1) (k * ratio - base) =
      (readOut ratio (x.drop base) fuel ((k + 1 : ℕ) * ratio - base)).map fun r =>
        (interpAt x (k * ratio) :: r.1, r.2) := by
  have hread : (k : ℚ) * ratio + 1 < x.length := (lt_count_iff h x.length k).mp hlt
  have hfloor := Nat.floor_le (mul_nonneg (Nat.cast_nonneg k) h.le : (0 : ℚ) ≤ k * ratio)
  have hend : ⌊(k : ℚ) * ratio⌋₊ + 1 < x.length := by
    have hcast : ((⌊(k : ℚ) * ratio⌋₊ + 1 : ℕ) : ℚ) < x.length := by
      push_cast
      linarith
    exact_mod_cast hcast
  -- the two samples are found behind what was drained
  have hget : ∀ j, ⌊(k : ℚ) * ratio⌋₊ + j < x.length → ∃ v, x[⌊(k : ℚ) * ratio⌋₊ + j]? = some v ∧
      (x.drop base)[⌊(k : ℚ) * ratio - base⌋₊ + j]? = some v := fun j hj => by
    refine ⟨_, List.getElem?_eq_getElem hj, ?_⟩
    rw [List.getElem?_drop, Nat.floor_sub_natCast, show base + (⌊(k : ℚ) * ratio⌋₊ - base + j) =
      ⌊(k : ℚ) * ratio⌋₊ + j by omega, List.getElem?_eq_getElem hj]
  obtain ⟨prev, hprev, hprev'⟩ := hget 0 (by omega)
  obtain ⟨cur, hcur, hcur'⟩ := hget 1 hend
  have hlen : (k : ℚ) * ratio - base + 1 < (x.drop base).length := by
    rw [List.length_drop, Nat.cast_sub hbase]
    linarith
  have hfrac : (k : ℚ) * ratio - base - ⌊(k : ℚ) * ratio - base⌋₊ = k * ratio - ⌊(k : ℚ) * ratio⌋₊ := by
    rw [Nat.floor_sub_natCast, Nat.cast_sub hk]
    ring
  have hnext : (k : ℚ) * ratio - base + ratio = ((k + 1 : ℕ) : ℚ) * ratio - base := by
    push_cast
    ring
  rw [readOut_of_lt hlen hprev' hcur', hfrac, hnext, interpAt_eq hprev hcur]

/-- The loop ends at the first position that cannot be read. -/
theorem readOut_end {x : List ℚ} {base fuel : ℕ} (h : 0 < ratio) (hbase : base ≤ x.length) :
    readOut ratio (x.drop base) fuel (count ratio x.length * ratio - base) =
      some ([], count ratio x.length * ratio - base) := by
  refine readOut_of_not_lt fun hlt => lt_irrefl (count ratio x.length) ?_
  rw [List.length_drop, Nat.cast_sub hbase] at hlt
  exact (lt_count_iff h _ _).mpr (by linarith)

/-- The loop reads at all positions that can be read, of the samples behind `base`. -/
theorem readOut_eq {x : List ℚ} {base fuel k : ℕ} (h : 0 < ratio) (hbase : base ≤ x.length)
    (hk : base ≤ ⌊(k : ℚ) * ratio⌋₊) (hle : k ≤ count ratio x.length)
    (hfuel : count ratio x.length - k ≤ fuel) :
    readOut ratio (x.drop base) fuel (k * ratio - base) =
      some (outputs ratio x k (count ratio x.length), count ratio x.length * ratio - base) := by
  induction fuel generalizing k with
  | zero =>
      obtain rfl : k = count ratio x.length := by omega
      rw [outputs_self, readOut_end h hbase]
  | succ fuel ih =>
      rcases Nat.eq_or_lt_of_le hle with rfl | hlt
      · rw [outputs_self, readOut_end h hbase]
      · have hmono : base ≤ ⌊((k + 1 : ℕ) : ℚ) * ratio⌋₊ :=
          hk.trans (Nat.floor_mono (mul_le_mul_of_nonneg_right (by push_cast; linarith) h.le))
        rw [readOut_position h hbase hk hlt, ih hmono hlt (by omega), outputs_of_lt x hlt]
        rfl

/-! ### Outputs -/

/-- More samples change no output that was read before. -/
theorem interpAt_append (h : 0 < ratio) {x : List ℚ} {k : ℕ} (hk : k < count ratio x.length)
    (y : List ℚ) : interpAt (x ++ y) (k * ratio) = interpAt x (k * ratio) := by
  have hread : (k : ℚ) * ratio + 1 < x.length := (lt_count_iff h x.length k).mp hk
  have hfloor := Nat.floor_le (mul_nonneg (Nat.cast_nonneg k) h.le : (0 : ℚ) ≤ k * ratio)
  have hend : ⌊(k : ℚ) * ratio⌋₊ + 1 < x.length := by
    have hcast : ((⌊(k : ℚ) * ratio⌋₊ + 1 : ℕ) : ℚ) < x.length := by
      push_cast
      linarith
    exact_mod_cast hcast
  simp only [interpAt, List.getD_eq_getElem?_getD]
  rw [List.getElem?_append_left hend, List.getElem?_append_left (Nat.lt_of_succ_lt hend)]

theorem outputs_append (h : 0 < ratio) {x : List ℚ} {m n : ℕ} (hn : n ≤ count ratio x.length)
    (y : List ℚ) : outputs ratio (x ++ y) m n = outputs ratio x m n := by
  refine List.map_congr_left fun k hk => interpAt_append h ?_ y
  have := List.mem_range'_1.mp hk
  omega

/-- Outputs in two parts. -/
theorem outputs_append_outputs (x : List ℚ) {l m n : ℕ} (hlm : l ≤ m) (hmn : m ≤ n) :
    outputs ratio x l m ++ outputs ratio x m n = outputs ratio x l n := by
  have hrange : List.range' l (m - l) ++ List.range' m (n - m) = List.range' l (n - l) := by
    have happend := @List.range'_append l (m - l) (n - m) 1
    rwa [Nat.one_mul, Nat.add_sub_cancel' hlm, show m - l + (n - m) = n - l by omega] at happend
  rw [outputs, outputs, outputs, ← List.map_append, hrange]

/-- All outputs are the samples at the positions that can be read. -/
theorem interpolates_outputs (h : 0 < ratio) (x : List ℚ) :
    Interpolates ratio x (outputs ratio x 0 (count ratio x.length)) := by
  have hlen : (outputs ratio x 0 (count ratio x.length)).length = count ratio x.length := by
    simp [outputs]
  refine ⟨fun k => by rw [hlen, lt_count_iff h], fun k v hk => ?_⟩
  obtain ⟨hlt, hv⟩ := List.getElem?_eq_some_iff.mp hk
  rw [← hv]
  simp [outputs]

/-! ### One buffer -/

/-- What a resampler holds after the samples `x`. -/
structure Held (ratio : ℚ) (x : List ℚ) (r : LinearResampler) : Prop where
  step : r.step = ratio
  pos : r.pos = count ratio x.length * ratio - place ratio x.length
  carry : r.carry = x.drop (place ratio x.length)
  fits : Fits ratio x.length

/-- A new resampler has had no samples. -/
theorem held_new (h : 1 / 10 ^ 6 ≤ ratio) : Held ratio [] (LinearResampler.new ratio) := by
  have hpos : 0 < ratio := lt_of_lt_of_le (by norm_num) h
  have hplace : place ratio ([] : List ℚ).length = 0 := place_zero hpos
  refine ⟨max_eq_left h, ?_, ?_, hplace.le⟩
  · rw [hplace, List.length_nil, count_zero hpos]
    simp [LinearResampler.new]
  · rw [hplace]
    rfl

/-- The rounds that the loop is given are enough. -/
theorem count_sub_le (h : 0 < ratio) {m n : ℕ} (hplace : place ratio m ≤ n) :
    count ratio n - count ratio m ≤ ⌈((n - place ratio m : ℕ) : ℚ) / ratio⌉₊ := by
  have hfloor : (place ratio m : ℚ) ≤ count ratio m * ratio :=
    Nat.floor_le (mul_nonneg (Nat.cast_nonneg _) h.le)
  rw [Nat.sub_le_iff_le_add, ← Nat.ceil_add_natCast (div_nonneg (Nat.cast_nonneg _) h.le)]
  refine Nat.ceil_mono ?_
  rw [div_add' _ _ _ h.ne', Nat.cast_sub hplace]
  exact div_le_div_of_nonneg_right (by linarith) h.le

/-- The loop of one buffer. -/
theorem Held.readOut (h : 0 < ratio) {x input : List ℚ} {r : LinearResampler} (hr : Held ratio x r) :
    readOut r.step (r.carry ++ input) ⌈((r.carry ++ input).length : ℚ) / r.step⌉₊ r.pos =
      some (outputs ratio (x ++ input) (count ratio x.length) (count ratio (x ++ input).length),
        count ratio (x ++ input).length * ratio - place ratio x.length) := by
  have hle : x.length ≤ (x ++ input).length := by simp
  have hbase : place ratio x.length ≤ (x ++ input).length := hr.fits.trans hle
  have hcarry : r.carry ++ input = (x ++ input).drop (place ratio x.length) := by
    rw [hr.carry, List.drop_append_of_le_length hr.fits]
  rw [hcarry, hr.step, hr.pos, List.length_drop]
  exact readOut_eq h hbase le_rfl (count_mono h hle) (count_sub_le h hbase)

/-- What the whole samples before the next position are drained by, and what it is then. -/
theorem Held.process_eq (h : 0 < ratio) {x input : List ℚ} {r : LinearResampler}
    (hr : Held ratio x r) (hinput : input ≠ []) :
    r.process input =
      (drain (r.carry ++ input) (place ratio (x ++ input).length - place ratio x.length)).map
        fun carry =>
          ({ r with
              carry := carry
              pos := count ratio (x ++ input).length * ratio - place ratio (x ++ input).length },
            outputs ratio (x ++ input) (count ratio x.length) (count ratio (x ++ input).length)) := by
  have hplace : place ratio x.length ≤ place ratio (x ++ input).length := place_mono h (by simp)
  have hfloor : ⌊(count ratio (x ++ input).length : ℚ) * ratio - place ratio x.length⌋₊ =
      place ratio (x ++ input).length - place ratio x.length := Nat.floor_sub_natCast _ _
  unfold LinearResampler.process
  rw [if_neg (by simpa using hinput)]
  simp only [hr.readOut h, Option.bind_eq_bind, Option.bind_some, hfloor, Nat.cast_sub hplace,
    sub_sub_sub_cancel_right]
  cases drain (r.carry ++ input) (place ratio (x ++ input).length - place ratio x.length) <;> rfl

/-- A buffer after which the next position fits gives what can be read now. -/
theorem Held.process (h : 0 < ratio) {x input : List ℚ} {r : LinearResampler} (hr : Held ratio x r)
    (hfits : Fits ratio (x ++ input).length) :
    ∃ r', r.process input = some (r', outputs ratio (x ++ input) (count ratio x.length)
      (count ratio (x ++ input).length)) ∧ Held ratio (x ++ input) r' := by
  by_cases hinput : input = []
  · subst hinput
    rw [List.append_nil, outputs_self]
    exact ⟨r, rfl, hr⟩
  · have hplace : place ratio x.length ≤ place ratio (x ++ input).length := place_mono h (by simp)
    have hdrain : drain (r.carry ++ input) (place ratio (x ++ input).length - place ratio x.length) =
        some ((x ++ input).drop (place ratio (x ++ input).length)) := by
      rw [drain, hr.carry, ← List.drop_append_of_le_length hr.fits, List.length_drop,
        if_pos (Nat.sub_le_sub_right hfits _), List.drop_drop, Nat.add_sub_cancel' hplace]
    refine ⟨{ r with
        carry := (x ++ input).drop (place ratio (x ++ input).length)
        pos := count ratio (x ++ input).length * ratio - place ratio (x ++ input).length }, ?_,
      hr.step, rfl, rfl, hfits⟩
    rw [hr.process_eq h hinput, hdrain, Option.map_some]

/-- A buffer after which the next position does not fit is a panic. -/
theorem Held.process_panics (h : 0 < ratio) {x input : List ℚ} {r : LinearResampler}
    (hr : Held ratio x r) (hfits : ¬ Fits ratio (x ++ input).length) : r.process input = none := by
  have hinput : input ≠ [] := by
    rintro rfl
    rw [List.append_nil] at hfits
    exact hfits hr.fits
  have hdrain : drain (r.carry ++ input) (place ratio (x ++ input).length - place ratio x.length) =
      none := by
    refine if_neg fun hle => hfits ?_
    rw [hr.carry, ← List.drop_append_of_le_length hr.fits, List.length_drop] at hle
    have hold : place ratio x.length ≤ (x ++ input).length := hr.fits.trans (by simp)
    exact (Nat.sub_le_sub_iff_right hold).mp hle
  rw [hr.process_eq h hinput, hdrain, Option.map_none]

/-! ### All buffers -/

/-- After buffers after each of which the next position fits, everything has been read. -/
theorem Held.processAll (h : 0 < ratio) {x : List ℚ} {r : LinearResampler} {inputs : List (List ℚ)}
    (hr : Held ratio x r)
    (hfits : ∀ i ≤ inputs.length, Fits ratio (x ++ (inputs.take i).flatten).length) :
    ∃ outs, processAll r inputs = some outs ∧
      outs.flatten = outputs ratio (x ++ inputs.flatten) (count ratio x.length)
        (count ratio (x ++ inputs.flatten).length) := by
  induction inputs generalizing x r with
  | nil =>
      refine ⟨[], rfl, ?_⟩
      rw [List.flatten_nil, List.append_nil, outputs_self]
  | cons input inputs ih =>
      have hfirst : Fits ratio (x ++ input).length := by simpa using hfits 1 (by simp)
      obtain ⟨r', hr', hheld⟩ := hr.process h hfirst
      obtain ⟨outs, houts, hflat⟩ := ih hheld fun i hi => by
        simpa using hfits (i + 1) (by simpa using hi)
      refine ⟨outputs ratio (x ++ input) (count ratio x.length) (count ratio (x ++ input).length) :: outs,
        ?_, ?_⟩
      · rw [Resampler.processAll, hr']
        simp only [Option.bind_eq_bind, Option.bind_some, houts]
        rfl
      have hold : count ratio x.length ≤ count ratio (x ++ input).length := count_mono h (by simp)
      have hnew : count ratio (x ++ input).length ≤ count ratio (x ++ input ++ inputs.flatten).length :=
        count_mono h (by simp)
      have hthis := outputs_append h (x := x ++ input) (m := count ratio x.length) le_rfl inputs.flatten
      rw [List.flatten_cons, hflat, List.flatten_cons, ← List.append_assoc, ← hthis,
        outputs_append_outputs _ hold hnew]

/-- A buffer after which the next position does not fit is a panic at the latest. -/
theorem Held.processAll_panics (h : 0 < ratio) {x : List ℚ} {r : LinearResampler}
    {inputs : List (List ℚ)} (hr : Held ratio x r) {i : ℕ} (hi : i ≤ inputs.length)
    (hfits : ¬ Fits ratio (x ++ (inputs.take i).flatten).length) :
    Resampler.processAll r inputs = none := by
  induction inputs generalizing x r i with
  | nil => exact absurd hr.fits (by simpa using hfits)
  | cons input inputs ih =>
      cases i with
      | zero => exact absurd hr.fits (by simpa using hfits)
      | succ i =>
          by_cases hfirst : Fits ratio (x ++ input).length
          · obtain ⟨r', hr', hheld⟩ := hr.process h hfirst
            have hrest := ih hheld (i := i) (by simpa using hi) (by simpa using hfits)
            rw [Resampler.processAll, hr']
            simp [hrest]
          · rw [Resampler.processAll, hr.process_panics h hfirst]
            rfl

/-- The samples are read at the multiples of the ratio, however they are cut into buffers, exactly where
after each buffer the next multiple of the ratio is no further than the samples so far. -/
theorem processAll_iff (hratio : 1 / 10 ^ 6 ≤ ratio) (buffers : List (List ℚ)) :
    (∃ outs, processAll (LinearResampler.new ratio) buffers = some outs ∧
      Interpolates ratio buffers.flatten outs.flatten) ↔
    ∀ i ≤ buffers.length, Fits ratio (buffers.take i).flatten.length := by
  have h : 0 < ratio := lt_of_lt_of_le (by norm_num) hratio
  constructor
  · rintro ⟨outs, houts, -⟩ i hi
    by_contra hfits
    rw [(held_new hratio).processAll_panics h hi hfits] at houts
    cases houts
  · intro hfits
    obtain ⟨outs, houts, hflat⟩ := (held_new hratio).processAll h hfits
    refine ⟨outs, houts, ?_⟩
    rw [hflat, List.nil_append, List.length_nil, count_zero h]
    exact interpolates_outputs h buffers.flatten

/-- With a step of three samples, a buffer of four and one of three. -/
theorem processAll_three :
    ∃ outs, processAll (LinearResampler.new 3) [[0, 1, 2, 3], [4, 5, 6]] = some outs ∧
      Interpolates 3 [0, 1, 2, 3, 4, 5, 6] outs.flatten :=
  (processAll_iff (by norm_num) [[0, 1, 2, 3], [4, 5, 6]]).mpr fun i hi => by
    have hi : i < 3 := Nat.lt_succ_of_le hi
    interval_cases i
    · exact (place_zero (by norm_num)).le
    · norm_num [Fits, place, count]
    · norm_num [Fits, place, count]

/-- With a step of three samples a buffer of two is a panic. -/
theorem processAll_two_samples : processAll (LinearResampler.new 3) [[0, 1]] = none := by
  have hcount : count 3 2 = 1 := (Nat.ceil_eq_iff one_ne_zero).2 (by norm_num)
  have hfits : ¬ Fits 3 2 := by norm_num [Fits, place, hcount]
  exact (held_new (by norm_num)).processAll_panics (by norm_num) (i := 1) le_rfl hfits

end Resampler

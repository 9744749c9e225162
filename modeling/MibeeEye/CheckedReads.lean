/-
**Reads that may be out of range.**

A language with bounds checks gives a read three outcomes: a value, an error the code returns, and
a panic.  This module has the second and third apart, so that "never panics" is a statement about a
model and not a convention of it.  A recursion without a measure of its own takes a fuel, and
running out of it is a fault of its own kind too: a result of the model is one of the code only
when it is none of these.

Main definitions:

* `Checked.Run` — a computation with the faults of `Checked.Fault`;
* `Checked.byteAt`, `Checked.bytesAt`, `Checked.range`, `Checked.suffixFrom` — reads of a sequence,
  checked as the language checks them;
* `Checked.returned` — a computation that only has the errors the code returns.

Main results:

* `Checked.bytesAt_eq`, `Checked.range_eq`, `Checked.suffixFrom_eq` — a read within the bounds is the
  part of the sequence.
-/

import Mathlib.Data.List.Basic

set_option relaxedAutoImplicit false
set_option autoImplicit false

namespace Checked

variable {ε α β : Type}

/-! ### Faults -/

/-- Why a run has no value. -/
inductive Fault (ε : Type)
  /-- an index, a slice, a shift or an addition out of range -/
  | panic
  /-- the model ran out of fuel -/
  | outOfFuel
  /-- the code returned an error -/
  | error (e : ε)
  deriving DecidableEq, Repr

/-- A computation that may fault. -/
abbrev Run (ε α : Type) := Except (Fault ε) α

/-- The run that returns an error of the code. -/
def bail (e : ε) : Run ε α := .error (.error e)

/-- The run that panics. -/
def panics : Run ε α := .error .panic

/-- A computation whose only faults are the errors the code returns. -/
def returned : Except ε α → Run ε α
  | .ok a => .ok a
  | .error e => bail e

@[simp] theorem returned_ok (a : α) : returned (.ok a : Except ε α) = .ok a := rfl

@[simp] theorem returned_error (e : ε) : returned (.error e : Except ε α) = bail e := rfl

@[simp] theorem ok_bind (a : α) (f : α → Except ε β) : ((.ok a : Except ε α) >>= f) = f a := rfl

@[simp] theorem bail_bind (e : ε) (f : α → Run ε β) : ((bail e : Run ε α) >>= f) = bail e := rfl

@[simp] theorem panics_bind (f : α → Run ε β) : ((panics : Run ε α) >>= f) = panics := rfl

/-- What was returned was neither a panic nor the end of the fuel. -/
theorem returned_ne_panics (x : Except ε α) : returned x ≠ panics := by
  cases x with
  | error e => simp [bail, panics]
  | ok a => simp [panics]

/-! ### Reads -/

/-- `data[i]`. -/
def byteAt (data : List α) (i : ℕ) : Run ε α :=
  match data[i]? with
  | some b => .ok b
  | none => panics

/-- The `n` reads `data[i]`, `data[i + 1]`, and so on. -/
@[grind =] def bytesAt (data : List α) (i : ℕ) : ℕ → Run ε (List α)
  | 0 => .ok []
  | n + 1 => do
      let b ← byteAt data i
      let bs ← bytesAt data (i + 1) n
      return b :: bs

/-- `data[i..j]`. -/
def range (data : List α) (i j : ℕ) : Run ε (List α) :=
  if i ≤ j ∧ j ≤ data.length then .ok ((data.drop i).take (j - i)) else panics

/-- `data[i..]`. -/
def suffixFrom (data : List α) (i : ℕ) : Run ε (List α) :=
  if i ≤ data.length then .ok (data.drop i) else panics

/-- A read within the bounds. -/
theorem byteAt_eq {data : List α} {i : ℕ} (h : i < data.length) :
    (byteAt data i : Run ε α) = .ok data[i] := by
  rw [byteAt, List.getElem?_eq_getElem h]

theorem byteAt_of_le {data : List α} {i : ℕ} (h : data.length ≤ i) :
    (byteAt data i : Run ε α) = panics := by
  rw [byteAt, List.getElem?_eq_none h]

/-- Reads of consecutive positions within the bounds. -/
theorem bytesAt_eq {data : List α} {i n : ℕ} (h : i + n ≤ data.length) :
    (bytesAt data i n : Run ε (List α)) = .ok ((data.drop i).take n) := by
  induction n generalizing i with
  | zero => rfl
  | succ n ih =>
      have hi : i < data.length := by omega
      rw [bytesAt, byteAt_eq hi, ok_bind, ih (by omega), ok_bind,
        List.drop_eq_getElem_cons hi, List.take_succ_cons]
      rfl

/-- Reads of consecutive positions, of which the last is out of range. -/
theorem bytesAt_of_lt {data : List α} {i n : ℕ} (hn : n ≠ 0) (h : data.length < i + n) :
    (bytesAt data i n : Run ε (List α)) = panics := by
  induction n generalizing i with
  | zero => exact absurd rfl hn
  | succ n ih =>
      rw [bytesAt]
      by_cases hi : i < data.length
      · rw [byteAt_eq hi, ok_bind, ih (by omega) (by omega), panics_bind]
      · rw [byteAt_of_le (by omega), panics_bind]

/-- A slice within the bounds. -/
theorem range_eq {data : List α} {i j : ℕ} (hij : i ≤ j) (h : j ≤ data.length) :
    (range data i j : Run ε (List α)) = .ok ((data.drop i).take (j - i)) :=
  if_pos ⟨hij, h⟩

theorem range_of_lt {data : List α} {i j : ℕ} (h : data.length < j) :
    (range data i j : Run ε (List α)) = panics :=
  if_neg fun hle => absurd hle.2 (by omega)

/-- The rest of a sequence from a position within the bounds. -/
theorem suffixFrom_eq {data : List α} {i : ℕ} (h : i ≤ data.length) :
    (suffixFrom data i : Run ε (List α)) = .ok (data.drop i) :=
  if_pos h

theorem suffixFrom_of_lt {data : List α} {i : ℕ} (h : data.length < i) :
    (suffixFrom data i : Run ε (List α)) = panics :=
  if_neg (by omega)

end Checked

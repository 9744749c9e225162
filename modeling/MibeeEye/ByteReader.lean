/-
**Readers of a byte source.**

A parser of a binary format takes bytes off the front of a source.  What matters for its callers is
not only the value it returns but how much of the source it has used up, also when it fails: a
failed `read_exact` on an in-memory cursor leaves the cursor at the end of its data.  A reader is
therefore a function from the bytes in front of it to a result together with the bytes that are
left, whether or not the result is an error.

The specification of a reader on well-formed input is `Wire.Reads r bs a`: in front of `bs`, with
anything behind it, `r` returns `a` and leaves exactly what is behind.  Readings compose
(`Wire.Reads.bind`), so a round trip through a whole format is assembled from its fields.

Main definitions:

* `Wire.Reader`, with its monad structure, `Wire.Reader.fail` and `Wire.readExact`;
* `Wire.Reads` — a reader consumes exactly a given byte string;
* `Wire.Consumes` — a reader that succeeds consumes at least a given number of bytes.

Main results:

* `Wire.Reads.bind`, `Wire.reads_readExact` — the composition rules;
* `Wire.Consumes.bind`, `Wire.consumes_readExact` — the same for the bounds.
-/

import MibeeEye.ByteOrder

set_option relaxedAutoImplicit false
set_option autoImplicit false

namespace Wire

variable {ε α β : Type}

/-- A computation that takes bytes off the front of a source; the bytes left over are returned
with an error as well. -/
def Reader (ε α : Type) : Type := List UInt8 → Except ε α × List UInt8

namespace Reader

instance : Monad (Reader ε) where
  pure a := fun bs => (.ok a, bs)
  bind r f := fun bs =>
    match r bs with
    | (.ok a, rest) => f a rest
    | (.error e, rest) => (.error e, rest)

/-- Fail without reading. -/
def fail (e : ε) : Reader ε α := fun bs => (.error e, bs)

/-- A result that needs no reading. -/
def ofExcept (x : Except ε α) : Reader ε α := fun bs => (x, bs)

theorem bind_of_ok {r : Reader ε α} {f : α → Reader ε β} {bs rest : List UInt8} {a : α}
    (h : r bs = (.ok a, rest)) : (r >>= f) bs = f a rest := by
  change (match r bs with
    | (.ok a, rest) => f a rest
    | (.error e, rest) => (.error e, rest)) = _
  rw [h]

theorem bind_of_error {r : Reader ε α} {f : α → Reader ε β} {bs rest : List UInt8} {e : ε}
    (h : r bs = (.error e, rest)) : (r >>= f) bs = (.error e, rest) := by
  change (match r bs with
    | (.ok a, rest) => f a rest
    | (.error e, rest) => (.error e, rest)) = _
  rw [h]

end Reader

/-- Take exactly `n` bytes.  When there are fewer, the error `e` is returned and the source is
left empty. -/
def readExact (e : ε) (n : ℕ) : Reader ε (List UInt8) := fun bs =>
  if n ≤ bs.length then (.ok (bs.take n), bs.drop n) else (.error e, [])

theorem readExact_of_le {e : ε} {n : ℕ} {bs : List UInt8} (h : n ≤ bs.length) :
    readExact e n bs = (.ok (bs.take n), bs.drop n) := by
  rw [readExact, if_pos h]

theorem readExact_of_lt {e : ε} {n : ℕ} {bs : List UInt8} (h : bs.length < n) :
    readExact e n bs = (.error e, []) := by
  rw [readExact, if_neg (by omega)]

/-! ### Reading exactly a byte string -/

/-- In front of `bs`, whatever follows it, the reader returns `a` and leaves what follows. -/
def Reads (r : Reader ε α) (bs : List UInt8) (a : α) : Prop :=
  ∀ rest, r (bs ++ rest) = (.ok a, rest)

theorem Reads.pure (a : α) : Reads (Pure.pure a : Reader ε α) [] a := fun _ => rfl

theorem Reads.ofExcept {x : Except ε α} {a : α} (h : x = .ok a) :
    Reads (Reader.ofExcept x) [] a := by
  intro rest
  rw [h]
  rfl

theorem Reads.bind {r : Reader ε α} {f : α → Reader ε β} {bs cs : List UInt8} {a : α} {b : β}
    (hr : Reads r bs a) (hf : Reads (f a) cs b) : Reads (r >>= f) (bs ++ cs) b := by
  intro rest
  rw [List.append_assoc, Reader.bind_of_ok (hr (cs ++ rest))]
  exact hf rest

/-- A reading that consumes nothing before the next one. -/
theorem Reads.bind_nil {r : Reader ε α} {f : α → Reader ε β} {cs : List UInt8} {a : α} {b : β}
    (hr : Reads r [] a) (hf : Reads (f a) cs b) : Reads (r >>= f) cs b := by
  simpa using hr.bind hf

/-- A last step that only computes. -/
theorem Reads.bind_last {r : Reader ε α} {f : α → Reader ε β} {bs : List UInt8} {a : α} {b : β}
    (hr : Reads r bs a) (hf : f a = Pure.pure b) : Reads (r >>= f) bs b := by
  have h : Reads (f a) [] b := by
    rw [hf]
    exact Reads.pure b
  simpa using hr.bind h

theorem reads_readExact (e : ε) {n : ℕ} {l : List UInt8} (h : l.length = n) :
    Reads (readExact e n) l l := by
  intro rest
  subst h
  rw [readExact_of_le (by simp), List.take_left, List.drop_left]

/-! ### How much a success consumes -/

/-- Whenever the reader succeeds it has taken at least `n` bytes off its source. -/
def Consumes (r : Reader ε α) (n : ℕ) : Prop :=
  ∀ bs a rest, r bs = (.ok a, rest) → rest.length + n ≤ bs.length

theorem Consumes.mono {r : Reader ε α} {m n : ℕ} (h : Consumes r n) (hmn : m ≤ n) :
    Consumes r m := by
  intro bs a rest hr
  have := h bs a rest hr
  omega

theorem Consumes.pure (a : α) : Consumes (Pure.pure a : Reader ε α) 0 := by
  intro bs a' rest h
  obtain ⟨-, rfl⟩ := Prod.mk.inj h
  exact le_rfl

theorem Consumes.fail (e : ε) (n : ℕ) : Consumes (Reader.fail e : Reader ε α) n := by
  intro bs a rest h
  simp [Reader.fail] at h

theorem Consumes.ofExcept (x : Except ε α) : Consumes (Reader.ofExcept x) 0 := by
  intro bs a rest h
  obtain ⟨-, rfl⟩ := Prod.mk.inj h
  exact le_rfl

theorem Consumes.bind {r : Reader ε α} {f : α → Reader ε β} {m n : ℕ} (hr : Consumes r m)
    (hf : ∀ a, Consumes (f a) n) : Consumes (r >>= f) (m + n) := by
  intro bs b rest h
  cases hrun : r bs with
  | mk x mid =>
      cases x with
      | error e => rw [Reader.bind_of_error hrun] at h; simp at h
      | ok a =>
          rw [Reader.bind_of_ok hrun] at h
          have h₁ := hr bs a mid hrun
          have h₂ := hf a mid b rest h
          omega

theorem consumes_readExact (e : ε) (n : ℕ) : Consumes (readExact e n) n := by
  intro bs a rest h
  by_cases hn : n ≤ bs.length
  · rw [readExact_of_le hn] at h
    obtain ⟨-, rfl⟩ := Prod.mk.inj h
    rw [List.length_drop]
    omega
  · rw [readExact_of_lt (by omega)] at h
    simp at h

end Wire

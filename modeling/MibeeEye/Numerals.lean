/-
**Numbers that were printed, read back.**

A number is printed in decimal without leading zeros, or in hexadecimal with two digits for each byte
of a fixed width.  `Text.parseUnsigned` reads both back.

Main definitions:

* `Text.horner` — the number of some digits.

Main results:

* `Text.parseUnsigned_toDigits` — decimal numbers;
* `Text.parseUnsigned_hexEncode` — **hexadecimal numbers of a fixed width**;
* `Text.trim_eq_self` — text with no white space at its ends is not trimmed.
-/

import MibeeEye.Md5
import MibeeEye.Text
import Mathlib.Tactic.Ring

set_option relaxedAutoImplicit false
set_option autoImplicit false

namespace Text

/-! ### Trimming -/

/-- Text with no white space at its ends is not trimmed. -/
theorem trim_eq_self {s : List Char} (hhead : ∀ c ∈ s.head?, isWhitespace c = false)
    (hlast : ∀ c ∈ s.getLast?, isWhitespace c = false) : trim s = s := by
  have hstart : s.dropWhile isWhitespace = s := by
    cases s with
    | nil => rfl
    | cons c s => rw [List.dropWhile_cons, if_neg (by simp [hhead c rfl])]
  rw [trim, hstart, List.rdropWhile_eq_self_iff]
  intro hne
  rw [hlast _ (List.getLast?_eq_some_getLast hne)]
  exact Bool.false_ne_true

/-! ### Digits -/

/-- The number of some digits, the highest first. -/
def horner (radix : ℕ) (digits : List ℕ) : ℕ := digits.foldl (fun acc d => acc * radix + d) 0

/-- Digits begin without a sign. -/
theorem dropPrefix_sign {radix : ℕ} {s : List Char} {digits : List ℕ}
    (hs : s.mapM (digitVal radix) = some digits) : dropPrefix ['+'] s = s := by
  cases s with
  | nil => rfl
  | cons c s =>
      have hc : c ≠ '+' := by
        rintro rfl
        have hnone : digitVal radix '+' = none := by simp [digitVal]
        simp [hnone] at hs
      simp [dropPrefix, List.dropPrefix?, hc]

/-- Some text is read as the number of its digits. -/
theorem parseUnsigned_of_digits {radix bound : ℕ} {s : List Char} {digits : List ℕ}
    (hs : s.mapM (digitVal radix) = some digits) (hne : digits ≠ [])
    (hlt : horner radix digits < bound) :
    parseUnsigned radix bound s = some (horner radix digits) := by
  rw [parseUnsigned, dropPrefix_sign hs, hs]
  simp [horner] at hlt
  simp [hne, horner, hlt]

/-! ### Decimal numbers -/

theorem digitVal_digitChar {d : ℕ} (h : d < 10) : digitVal 10 d.digitChar = some d := by
  have hall : ∀ d : Fin 10, digitVal 10 d.val.digitChar = some d.val := by decide
  exact hall ⟨d, h⟩

/-- The digits that are printed are those of the number. -/
theorem mapM_toDigits (n : ℕ) :
    ∃ digits, (Nat.toDigits 10 n).mapM (digitVal 10) = some digits ∧ digits ≠ [] ∧
      horner 10 digits = n := by
  induction n using Nat.strong_induction_on with
  | _ n ih =>
      rw [Nat.toDigits_eq_if (by omega)]
      by_cases hn : n < 10
      · refine ⟨[n], ?_, by simp, by simp [horner]⟩
        rw [if_pos hn]
        simp [digitVal_digitChar hn]
      · obtain ⟨digits, hdigits, hne, hvalue⟩ := ih (n / 10) (by omega)
        refine ⟨digits ++ [n % 10], ?_, by simp, ?_⟩
        · rw [if_neg hn, List.mapM_append, hdigits]
          simp [digitVal_digitChar (Nat.mod_lt n (by omega))]
        · rw [horner, List.foldl_append, ← horner, hvalue, List.foldl_cons, List.foldl_nil]
          omega

/-- **A number that was printed in decimal is read back.** -/
theorem parseUnsigned_toDigits {n bound : ℕ} (h : n < bound) :
    parseUnsigned 10 bound (Nat.toDigits 10 n) = some n := by
  obtain ⟨digits, hdigits, hne, rfl⟩ := mapM_toDigits n
  exact parseUnsigned_of_digits hdigits hne h

/-- What is printed in decimal is neither white space nor any other separator. -/
theorem isDigit_of_mem_toDigits {n : ℕ} {c : Char} (h : c ∈ Nat.toDigits 10 n) : c.isDigit = true :=
  Nat.isDigit_of_mem_toDigits (by omega) le_rfl h

/-! ### Hexadecimal numbers of a fixed width -/

open Md5 Wire

theorem digitVal_hexDigit {d : ℕ} (h : d < 16) : digitVal 16 (hexDigit d) = some d := by
  have hall : ∀ d : Fin 16, digitVal 16 (hexDigit d.val) = some d.val := by decide
  exact hall ⟨d, h⟩

/-- The two digits of each byte. -/
def hexDigits (data : List UInt8) : List ℕ := data.flatMap fun b => [b.toNat / 16, b.toNat % 16]

theorem mapM_hexEncode (data : List UInt8) :
    (hexEncode data).toList.mapM (digitVal 16) = some (hexDigits data) := by
  rw [hexEncode, String.toList_ofList]
  induction data with
  | nil => rfl
  | cons b data ih =>
      have hb := b.toNat_lt
      rw [List.flatMap_cons, List.mapM_append, ih]
      simp [digitVal_hexDigit (show b.toNat / 16 < 16 by omega),
        digitVal_hexDigit (Nat.mod_lt b.toNat (show 16 > 0 by omega)), hexDigits]

/-- One more byte at the high end. -/
theorem ofLe_append_singleton (l : List UInt8) (b : UInt8) :
    ofLe (l ++ [b]) = ofLe l + b.toNat * 256 ^ l.length := by
  induction l with
  | nil => simp [ofLe]
  | cons c l ih =>
      rw [List.cons_append, ofLe, ih, ofLe, List.length_cons, pow_succ]
      ring

theorem ofBe_cons (b : UInt8) (l : List UInt8) :
    ofBe (b :: l) = b.toNat * 256 ^ l.length + ofBe l := by
  rw [ofBe, List.reverse_cons, ofLe_append_singleton, List.length_reverse, ofBe, Nat.add_comm]

theorem foldl_hexDigits (data : List UInt8) (acc : ℕ) :
    (hexDigits data).foldl (fun acc d => acc * 16 + d) acc =
      acc * 256 ^ data.length + ofBe data := by
  induction data generalizing acc with
  | nil => simp [hexDigits, ofBe, ofLe]
  | cons b data ih =>
      have hstep : (acc * 16 + b.toNat / 16) * 16 + b.toNat % 16 = acc * 256 + b.toNat := by omega
      rw [hexDigits, List.flatMap_cons, List.foldl_append, ← hexDigits, ih]
      simp only [List.foldl_cons, List.foldl_nil]
      rw [hstep, ofBe_cons, List.length_cons, pow_succ]
      ring

/-- **A number that was printed in hexadecimal, at a fixed width, is read back.** -/
theorem parseUnsigned_hexEncode {w n bound : ℕ} (hw : 0 < w) (hn : n < 256 ^ w) (h : n < bound) :
    parseUnsigned 16 bound (hexEncode (beBytes w n)).toList = some n := by
  have hvalue : horner 16 (hexDigits (beBytes w n)) = n := by
    rw [horner, foldl_hexDigits, ofBe_beBytes_of_lt hn, Nat.zero_mul, Nat.zero_add]
  have hne : hexDigits (beBytes w n) ≠ [] := by
    obtain ⟨b, l, hl⟩ : ∃ b l, beBytes w n = b :: l := by
      refine List.exists_cons_of_ne_nil fun hnil => ?_
      have hlen := length_beBytes w n
      rw [hnil, List.length_nil] at hlen
      omega
    rw [hl]
    exact List.cons_ne_nil _ _
  have hparse := parseUnsigned_of_digits (mapM_hexEncode (beBytes w n)) hne (by rwa [hvalue])
  rwa [hvalue] at hparse

/-- What is printed in hexadecimal is a digit in one of the two ranges of them. -/
theorem mem_hexEncode {data : List UInt8} {c : Char} (h : c ∈ (hexEncode data).toList) :
    ∃ d < 16, c = hexDigit d := by
  rw [hexEncode, String.toList_ofList, List.mem_flatMap] at h
  obtain ⟨b, -, hc⟩ := h
  have hb := b.toNat_lt
  rcases List.mem_cons.mp hc with rfl | hc
  · exact ⟨b.toNat / 16, by omega, rfl⟩
  · exact ⟨b.toNat % 16, by omega, List.mem_singleton.mp hc⟩

end Text

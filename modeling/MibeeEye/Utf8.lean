/-
**Strings as bytes.**

Text travels as UTF-8.  Besides the round trip between strings and bytes this module has one fact
about which byte sequences can occur in it: a byte that starts a multi-byte character is followed by
a continuation byte, so the same lead byte never stands twice in a row.

Main definitions:

* `Wire.asBytes`, `Wire.fromUtf8` — the bytes of a string, and the string of valid bytes;
* `Wire.NoRun` — a byte string in which a byte does not occur a given number of times in a row;
* `Wire.strSlice` — the text between two byte offsets.

Main results:

* `Wire.fromUtf8_asBytes` — the round trip;
* `Wire.notMem_asBytes` — the ASCII bytes of a string are its ASCII characters;
* `Wire.NoRun.append` — runs in a concatenation;
* `Wire.noRun_asBytes` — **a lead byte never stands twice in a row**;
* `Wire.strSlice_append` — the middle of a text is what its offsets cut out.
-/

import Mathlib.Algebra.Order.Ring.Nat
import Mathlib.Data.List.Basic

set_option relaxedAutoImplicit false
set_option autoImplicit false

namespace Wire

/-! ### Strings and bytes -/

/-- The UTF-8 bytes of a string. -/
def asBytes (s : String) : List UInt8 := s.toByteArray.data.toList

/-- The string whose UTF-8 bytes are given, if they are valid. -/
def fromUtf8 (bytes : List UInt8) : Option String := String.fromUTF8? ⟨bytes.toArray⟩

/-- Valid bytes are read back. -/
theorem fromUtf8_asBytes (s : String) : fromUtf8 (asBytes s) = some s := by
  have hbytes : (⟨(asBytes s).toArray⟩ : ByteArray) = s.toByteArray := by
    simp only [asBytes, Array.toArray_toList]
  rw [fromUtf8, hbytes, String.fromUTF8?, dif_pos s.isValidUTF8]
  rfl

/-- What was read as a string are its bytes. -/
theorem asBytes_of_fromUtf8 {bytes : List UInt8} {s : String} (h : fromUtf8 bytes = some s) :
    asBytes s = bytes := by
  rw [fromUtf8, String.fromUTF8?] at h
  split at h
  · cases h
    rfl
  · cases h

theorem asBytes_append (s t : String) : asBytes (s ++ t) = asBytes s ++ asBytes t := by
  simp [asBytes, String.toByteArray_append]

/-- The bytes of a string are those of its characters. -/
theorem asBytes_eq_flatMap (s : String) : asBytes s = s.toList.flatMap String.utf8EncodeChar := by
  rw [asBytes, ← @String.ofList_toList s, String.toByteArray_ofList, String.toList_ofList]
  exact List.toList_data_toByteArray

/-- A character takes at most four bytes. -/
theorem length_asBytes_le (s : String) : (asBytes s).length ≤ 4 * s.length := by
  have hchars : ∀ cs : List Char, (cs.flatMap String.utf8EncodeChar).length ≤ 4 * cs.length := by
    intro cs
    induction cs with
    | nil => exact Nat.zero_le _
    | cons c cs ih =>
        have hc : (String.utf8EncodeChar c).length ≤ 4 := by
          rw [String.length_utf8EncodeChar]
          exact Char.utf8Size_le_four c
        rw [List.flatMap_cons, List.length_append, List.length_cons]
        omega
  rw [asBytes_eq_flatMap, ← String.length_toList]
  exact hchars _

/-- An ASCII byte is a character of its own. -/
theorem toNat_eq_of_mem_utf8EncodeChar {b : UInt8} {c : Char} (hb : b.toNat < 0x80)
    (h : b ∈ String.utf8EncodeChar c) : c.toNat = b.toNat := by
  simp only [String.utf8EncodeChar] at h
  split at h
  · obtain rfl := List.mem_singleton.1 h
    rw [UInt8.toNat_ofNat']
    have : c.toNat = c.val.toNat := rfl
    omega
  · -- The bytes of any other character are at least `0x80`.
    exfalso
    split at h
    · simp at h
      rcases h with rfl | rfl <;> simp at hb <;> omega
    · split at h
      · simp at h
        rcases h with rfl | rfl | rfl <;> simp at hb <;> omega
      · simp at h
        rcases h with rfl | rfl | rfl | rfl <;> simp at hb <;> omega

/-- A string without an ASCII character is without its byte. -/
theorem notMem_asBytes {b : UInt8} {c : Char} {s : String} (hb : b.toNat < 0x80)
    (hc : c.toNat = b.toNat) (h : c ∉ s.toList) : b ∉ asBytes s := by
  rw [asBytes_eq_flatMap, List.mem_flatMap]
  rintro ⟨x, hx, hbx⟩
  have : x = c := Char.toNat_inj.1 ((toNat_eq_of_mem_utf8EncodeChar hb hbx).trans hc.symm)
  exact h (this ▸ hx)

/-! ### Runs -/

/-- The byte `b` does not occur `k` times in a row. -/
def NoRun (b : UInt8) (k : ℕ) (l : List UInt8) : Prop := ¬ List.replicate k b <:+: l

/-- A byte that does not occur has no run. -/
theorem noRun_of_notMem {b : UInt8} {l : List UInt8} (h : b ∉ l) : NoRun b 1 l := by
  intro hrun
  exact h (hrun.subset (by simp))

/-- A byte string has no run longer than itself. -/
theorem noRun_length (b : UInt8) (l : List UInt8) : NoRun b (l.length + 1) l := by
  intro hrun
  have := hrun.length_le
  rw [List.length_replicate] at this
  omega

/-- **Runs in a concatenation**: a run is made of one at the end of the first part and one at the
start of the second. -/
theorem NoRun.append {b : UInt8} {m n : ℕ} {l l' : List UInt8} (h : NoRun b (m + 1) l)
    (h' : NoRun b (n + 1) l') : NoRun b (m + n + 1) (l ++ l') := by
  intro hrun
  have hsub : ∀ {i j : ℕ}, i ≤ j → List.replicate i b <:+: List.replicate j b := by
    intro i j hij
    rw [show j = i + (j - i) by omega, List.replicate_add]
    exact List.infix_append_left
  rcases List.infix_append_iff.1 hrun with hl | hl | ⟨s, t, hst, hs, ht⟩
  · exact h ((hsub (by omega)).trans hl)
  · exact h' ((hsub (by omega)).trans hl)
  · -- the run straddles the border
    obtain ⟨hlen, hs', ht'⟩ := List.append_eq_replicate_iff.1 hst.symm
    rw [hs'] at hs
    rw [ht'] at ht
    by_cases hm : m + 1 ≤ s.length
    · exact h ((hsub hm).trans hs.isInfix)
    · exact h' ((hsub (by omega)).trans ht.isInfix)

/-! ### Lead bytes -/

/-- A character is one byte below `0x80`, or a byte followed by continuation bytes. -/
theorem utf8EncodeChar_shape (c : Char) : ∃ lead conts, String.utf8EncodeChar c = lead :: conts ∧
    (∀ x ∈ conts, x.toNat < 0xC0) ∧ (conts = [] → lead.toNat < 0x80) := by
  have hcont : ∀ n : ℕ, (n % 0x40 + 0x80) % 256 < 0xC0 := by
    intro n
    omega
  simp only [String.utf8EncodeChar]
  split
  · rename_i h
    refine ⟨_, _, rfl, by simp, ?_⟩
    intro _
    rw [UInt8.toNat_ofNat']
    omega
  · split
    · exact ⟨_, _, rfl, by simp [hcont], by simp⟩
    · split
      · exact ⟨_, _, rfl, by simp [hcont], by simp⟩
      · exact ⟨_, _, rfl, by simp [hcont], by simp⟩

/-- Every occurrence of `b` is followed by some other byte. -/
def LeadFollowed (b : UInt8) (l : List UInt8) : Prop := ∀ pre post, l = pre ++ b :: post →
  ∃ x post', post = x :: post' ∧ x ≠ b

theorem LeadFollowed.append {b : UInt8} {l l' : List UInt8} (h : LeadFollowed b l)
    (h' : LeadFollowed b l') : LeadFollowed b (l ++ l') := by
  intro pre post heq
  rcases List.append_eq_append_iff.1 heq with ⟨mid, hpre, hl'⟩ | ⟨mid, hl, hpost⟩
  · exact h' mid post hl'
  · cases mid with
    | nil => exact h' [] post (by simpa using hpost.symm)
    | cons y mid =>
        rw [List.cons_append, List.cons.injEq] at hpost
        obtain ⟨hy, hpost⟩ := hpost
        obtain ⟨x, post', hmid, hx⟩ := h pre mid (by rw [hl, hy])
        exact ⟨x, post' ++ l', by rw [hpost, hmid, List.cons_append], hx⟩

theorem leadFollowed_utf8EncodeChar {b : UInt8} (hb : 0xC0 ≤ b.toNat) (c : Char) :
    LeadFollowed b (String.utf8EncodeChar c) := by
  intro pre post heq
  obtain ⟨lead, conts, henc, hconts, hsingle⟩ := utf8EncodeChar_shape c
  rw [henc] at heq
  cases pre with
  | nil =>
      rw [List.nil_append, List.cons.injEq] at heq
      obtain ⟨rfl, rfl⟩ := heq
      cases conts with
      | nil =>
          have := hsingle rfl
          omega
      | cons x conts =>
          refine ⟨x, conts, rfl, ?_⟩
          rintro rfl
          have := hconts x (by simp)
          omega
  | cons y pre =>
      rw [List.cons_append, List.cons.injEq] at heq
      have := hconts b (by rw [heq.2]; simp)
      omega

/-- **A lead byte never stands twice in a row** in the bytes of a string. -/
theorem noRun_asBytes {b : UInt8} (hb : 0xC0 ≤ b.toNat) (s : String) : NoRun b 2 (asBytes s) := by
  have hlead : ∀ cs : List Char, LeadFollowed b (cs.flatMap String.utf8EncodeChar) := by
    intro cs
    induction cs with
    | nil =>
        intro pre post heq
        simp at heq
    | cons c cs ih =>
        rw [List.flatMap_cons]
        exact (leadFollowed_utf8EncodeChar hb c).append ih
  rw [asBytes_eq_flatMap]
  rintro ⟨pre, post, heq⟩
  obtain ⟨x, post', hpost, hx⟩ := hlead _ pre (b :: post) (by rw [← heq]; simp [List.replicate])
  exact hx (List.cons.inj hpost).1.symm

/-! ### Byte offsets in text -/

/-- The bytes of some characters. -/
def utf8Len (s : List Char) : ℕ := (s.map Char.utf8Size).sum

@[simp] theorem utf8Len_nil : utf8Len [] = 0 := rfl

@[simp] theorem utf8Len_cons (c : Char) (s : List Char) :
    utf8Len (c :: s) = c.utf8Size + utf8Len s := rfl

theorem utf8Len_append (a b : List Char) : utf8Len (a ++ b) = utf8Len a + utf8Len b := by
  simp [utf8Len]

/-- A string has the bytes of its characters. -/
theorem length_asBytes (s : String) : (asBytes s).length = utf8Len s.toList := by
  rw [asBytes_eq_flatMap, List.length_flatMap, utf8Len]
  congr 1
  exact List.map_congr_left fun c _ => String.length_utf8EncodeChar c

/-- ASCII characters are one byte each. -/
theorem utf8Len_eq_length {s : List Char} (h : ∀ c ∈ s, c.toNat < 128) : utf8Len s = s.length := by
  induction s with
  | nil => rfl
  | cons c s ih =>
      have hc : c.utf8Size = 1 := Char.utf8Size_eq_one_iff.mpr (by
        have hlt : c.val.toNat < 128 := h c List.mem_cons_self
        exact UInt32.le_iff_toNat_le.mpr (by simpa using Nat.le_of_lt_succ hlt))
      rw [utf8Len_cons, hc, ih fun x hx => h x (List.mem_cons_of_mem c hx), List.length_cons,
        Nat.add_comm]

/-- `str::split_at_checked`: the text before a byte offset and the text behind it, unless the offset
is inside a character or behind the end. -/
@[grind =] def splitAtByte : ℕ → List Char → Option (List Char × List Char)
  | 0, s => some ([], s)
  | _ + 1, [] => none
  | n + 1, c :: s =>
    if c.utf8Size ≤ n + 1 then
      (splitAtByte (n + 1 - c.utf8Size) s).map fun parts => (c :: parts.1, parts.2)
    else none

/-- `&s[i..j]`; a panic where an offset is no boundary of a character. -/
def strSlice (s : List Char) (i j : ℕ) : Option (List Char) :=
  if i ≤ j then
    (splitAtByte i s).bind fun parts => (splitAtByte (j - i) parts.2).map Prod.fst
  else none

/-- Text is split behind its first part. -/
theorem splitAtByte_append (a b : List Char) : splitAtByte (utf8Len a) (a ++ b) = some (a, b) := by
  induction a with
  | nil => rw [utf8Len_nil, List.nil_append, splitAtByte]
  | cons c a ih =>
      obtain ⟨n, hn⟩ : ∃ n, utf8Len (c :: a) = n + 1 :=
        Nat.exists_eq_succ_of_ne_zero (by have := Char.utf8Size_pos c; rw [utf8Len_cons]; omega)
      have hrest : n + 1 - c.utf8Size = utf8Len a := by rw [← hn, utf8Len_cons]; omega
      rw [hn, List.cons_append, splitAtByte, if_pos (by rw [← hn, utf8Len_cons]; omega), hrest, ih]
      rfl

/-- The middle of a text is what its offsets cut out. -/
theorem strSlice_append (a b c : List Char) :
    strSlice (a ++ (b ++ c)) (utf8Len a) (utf8Len a + utf8Len b) = some b := by
  rw [strSlice, if_pos (Nat.le_add_right _ _), splitAtByte_append, Option.bind_some,
    Nat.add_sub_cancel_left, splitAtByte_append]
  rfl

end Wire

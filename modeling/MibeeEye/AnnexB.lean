/-
**Start codes in a byte stream.**

`find_start_codes` in `crates/protocols/src/h264.rs` looks for `00 00 00 01` and `00 00 01` at every
position with at least four bytes left, and goes on behind what it found.  This module says what it
finds by the bytes that are left at a position: from there the next start code is a number of bytes
away (`H264.gap`), and the NAL unit in between is what `split_nal_units` returns.

When NAL units are joined with start codes the scanner finds exactly these: a NAL unit that neither
contains `00 00 00` or `00 00 01` nor ends in `00` has no start code that begins in it.

Main definitions:

* `H264.codeLen`, `H264.seen` — the start code at the front of some bytes, and whether
  `find_start_codes` sees it;
* `H264.gap` — the distance to the first start code;
* `H264.CleanNal`, `H264.annexB` — NAL units without start codes in them, and such joined.

Main results:

* `H264.codesFrom_gap`, `H264.nalsFrom_eq` — the scanner and the splitter by what is left;
* `H264.splitNalUnits_annexB` — **splitting undoes joining**.
-/

import MibeeEye.H264Nal
import Mathlib.Data.List.Infix

set_option relaxedAutoImplicit false
set_option autoImplicit false

namespace H264

open Wire

/-! ### Start codes -/

/-- The start code of three bytes. -/
def code3 : List UInt8 := [0x00, 0x00, 0x01]

/-- The start code of four bytes. -/
def code4 : List UInt8 := [0x00, 0x00, 0x00, 0x01]

/-- The length of the start code at the front of the bytes. -/
def codeLen (l : List UInt8) : Option ℕ :=
  if code4 <+: l then some 4 else if code3 <+: l then some 3 else none

/-- The start code at the front, when at least four bytes are left. -/
def seen (l : List UInt8) : Option ℕ := if 4 ≤ l.length then codeLen l else none

/-- A slice is a start code when the bytes left at its position begin with one. -/
theorem slice_eq_iff {data code : List UInt8} {i j : ℕ} (hj : j = i + code.length) :
    slice data i j = code ↔ code <+: data.drop i := by
  rw [slice, hj, Nat.add_sub_cancel_left, List.prefix_iff_eq_take, eq_comm]

theorem codeLen_le {l : List UInt8} {c : ℕ} (h : codeLen l = some c) :
    3 ≤ c ∧ c ≤ 4 ∧ c ≤ l.length := by
  unfold codeLen at h
  split at h
  · rename_i hcode
    cases h
    exact ⟨by omega, by omega, hcode.length_le⟩
  · split at h
    · rename_i hcode
      cases h
      exact ⟨by omega, by omega, hcode.length_le⟩
    · cases h

theorem codeLen_of_seen {l : List UInt8} {c : ℕ} (h : seen l = some c) : codeLen l = some c := by
  unfold seen at h
  split at h
  · exact h
  · cases h

theorem seen_of_lt {l : List UInt8} (h : l.length < 4) : seen l = none := if_neg (by omega)

/-! ### The distance to the first start code -/

section Gap

variable (p : List UInt8 → Option ℕ)

/-- The number of bytes before the first position at which `p` finds something, or all of them. -/
@[grind =] def gap : List UInt8 → ℕ
  | [] => 0
  | b :: l => if (p (b :: l)).isSome then 0 else 1 + gap l

theorem gap_of_some {l : List UInt8} {c : ℕ} (h : p l = some c) : gap p l = 0 := by
  cases l with
  | nil => rfl
  | cons b l => rw [gap, h]; rfl

theorem gap_cons_of_none {b : UInt8} {l : List UInt8} (h : p (b :: l) = none) :
    gap p (b :: l) = 1 + gap p l := by
  rw [gap, h]
  rfl

theorem gap_le (l : List UInt8) : gap p l ≤ l.length := by
  induction l with
  | nil => exact Nat.le_refl _
  | cons b l ih =>
      rw [gap, List.length_cons]
      split
      · exact Nat.zero_le _
      · omega

/-- Something is found where the gap ends, unless everything was passed. -/
theorem isSome_of_gap_lt {l : List UInt8} (h : gap p l < l.length) :
    ∃ c, p (l.drop (gap p l)) = some c := by
  induction l with
  | nil => exact absurd h (by simp [gap])
  | cons b l ih =>
      cases hp : p (b :: l) with
      | some c =>
          rw [gap_of_some p hp]
          exact ⟨c, hp⟩
      | none =>
          rw [gap_cons_of_none p hp, List.length_cons] at h
          rw [gap_cons_of_none p hp, Nat.add_comm, List.drop_succ_cons]
          exact ih (by omega)

/-- A stretch in which nothing is found is passed. -/
theorem gap_append {nal r : List UInt8}
    (h : ∀ k < nal.length, p (nal.drop k ++ r) = none) :
    gap p (nal ++ r) = nal.length + gap p r := by
  induction nal with
  | nil => simp
  | cons b nal ih =>
      have hhead : p (b :: (nal ++ r)) = none := h 0 (by simp)
      have htail : gap p (nal ++ r) = nal.length + gap p r := by
        apply ih
        intro k hk
        exact h (k + 1) (by rw [List.length_cons]; omega)
      rw [List.cons_append, gap_cons_of_none p hhead, htail, List.length_cons]
      omega

end Gap

/-! ### The scanner by what is left -/

/-- The start codes found from position `i` on. -/
def codesFrom (data : List UInt8) (i : ℕ) : List (ℕ × ℕ) :=
  findStartCodesF data (data.length - i) i

theorem findStartCodesF_step (data : List UInt8) (fuel i : ℕ) :
    findStartCodesF data (fuel + 1) i =
      if i + 3 < data.length then
        match codeLen (data.drop i) with
        | some c => (i, i + c) :: findStartCodesF data fuel (i + c)
        | none => findStartCodesF data fuel (i + 1)
      else [] := by
  rw [findStartCodesF]
  by_cases hlen : i + 3 < data.length
  · rw [if_pos hlen, if_pos hlen, codeLen]
    have h4 : slice data i (i + 4) = [0x00, 0x00, 0x00, 0x01] ↔ code4 <+: data.drop i :=
      slice_eq_iff rfl
    have h3 : slice data i (i + 3) = [0x00, 0x00, 0x01] ↔ code3 <+: data.drop i :=
      slice_eq_iff rfl
    simp only [h4, h3]
    split
    · rfl
    · split
      · rfl
      · rfl
  · rw [if_neg hlen, if_neg hlen]

/-- More fuel than bytes left makes no difference. -/
theorem findStartCodesF_succ (data : List UInt8) (fuel i : ℕ) (h : data.length ≤ i + fuel) :
    findStartCodesF data (fuel + 1) i = findStartCodesF data fuel i := by
  induction fuel generalizing i with
  | zero => rw [findStartCodesF_step, if_neg (by omega), findStartCodesF]
  | succ fuel ih =>
      rw [findStartCodesF_step data (fuel + 1) i, findStartCodesF_step data fuel i]
      split
      · cases hcode : codeLen (data.drop i) with
        | some c =>
            have := codeLen_le hcode
            dsimp only
            rw [ih (i + c) (by omega)]
        | none =>
            dsimp only
            rw [ih (i + 1) (by omega)]
      · rfl

theorem findStartCodesF_eq {data : List UInt8} {fuel i : ℕ} (h : data.length ≤ i + fuel) :
    findStartCodesF data fuel i = codesFrom data i := by
  obtain ⟨k, rfl⟩ : ∃ k, fuel = data.length - i + k := ⟨fuel - (data.length - i), by omega⟩
  induction k with
  | zero => rfl
  | succ k ih => rw [← Nat.add_assoc, findStartCodesF_succ data _ i (by omega), ih (by omega)]

theorem codesFrom_of_le {data : List UInt8} {i : ℕ} (h : data.length ≤ i + 3) :
    codesFrom data i = [] := by
  rw [codesFrom]
  cases data.length - i with
  | zero => rfl
  | succ k => rw [findStartCodesF_step, if_neg (by omega)]

/-- The first position of a scan. -/
theorem codesFrom_step {data : List UInt8} {i : ℕ} (h : i + 3 < data.length) :
    codesFrom data i = match codeLen (data.drop i) with
      | some c => (i, i + c) :: codesFrom data (i + c)
      | none => codesFrom data (i + 1) := by
  obtain ⟨k, hk⟩ : ∃ k, data.length - i = k + 1 := ⟨data.length - i - 1, by omega⟩
  rw [codesFrom, hk, findStartCodesF_step, if_pos h]
  cases hcode : codeLen (data.drop i) with
  | some c =>
      have := codeLen_le hcode
      dsimp only
      rw [findStartCodesF_eq (by omega)]
  | none =>
      dsimp only
      rw [findStartCodesF_eq (by omega)]

theorem lt_of_seen {data : List UInt8} {i c : ℕ} (h : seen (data.drop i) = some c) :
    i + 3 < data.length := by
  by_contra hlen
  rw [seen_of_lt (by rw [List.length_drop]; omega)] at h
  cases h

/-- **A start code that is seen is found**, and the scan goes on behind it. -/
theorem codesFrom_some {data : List UInt8} {i c : ℕ} (h : seen (data.drop i) = some c) :
    codesFrom data i = (i, i + c) :: codesFrom data (i + c) := by
  rw [codesFrom_step (lt_of_seen h), codeLen_of_seen h]

/-- Where none is seen the scan goes on at the next position. -/
theorem codesFrom_none {data : List UInt8} {i : ℕ} (h : seen (data.drop i) = none) :
    codesFrom data i = codesFrom data (i + 1) := by
  by_cases hlen : i + 3 < data.length
  · have hcode : codeLen (data.drop i) = none := by
      rw [seen, if_pos (by rw [List.length_drop]; omega)] at h
      exact h
    rw [codesFrom_step hlen, hcode]
  · rw [codesFrom_of_le (by omega), codesFrom_of_le (by omega)]

/-- **The next start code is where the gap ends.** -/
theorem codesFrom_gap (data : List UInt8) (i : ℕ) :
    codesFrom data i = codesFrom data (i + gap seen (data.drop i)) := by
  induction hl : data.drop i generalizing i with
  | nil => rfl
  | cons b l ih =>
      cases hseen : seen (b :: l) with
      | some c => rw [gap_of_some seen hseen]; rfl
      | none =>
          have hnext : data.drop (i + 1) = l := by
            rw [← List.drop_drop, hl]
            rfl
          rw [gap_cons_of_none seen hseen, ← Nat.add_assoc, ← ih (i + 1) hnext]
          exact codesFrom_none (by rw [hl]; exact hseen)

/-! ### The splitter by what is left -/

/-- Where a NAL unit ends that is followed by the given start codes. -/
def endOf (data : List UInt8) : List (ℕ × ℕ) → ℕ
  | [] => data.length
  | (next, _) :: _ => next

theorem nalsBetween_cons (data : List UInt8) (start dataStart : ℕ) (codes : List (ℕ × ℕ)) :
    nalsBetween data ((start, dataStart) :: codes) =
      if dataStart < endOf data codes then
        slice data dataStart (endOf data codes) :: nalsBetween data codes
      else nalsBetween data codes := by
  cases codes with
  | nil => rfl
  | cons code codes => rfl

/-- The NAL unit that starts at `i` ends where the gap does. -/
theorem endOf_codesFrom {data : List UInt8} {i : ℕ} (h : i ≤ data.length) :
    endOf data (codesFrom data i) = i + gap seen (data.drop i) := by
  have hle := gap_le seen (data.drop i)
  rw [List.length_drop] at hle
  rw [codesFrom_gap]
  by_cases hlt : gap seen (data.drop i) < (data.drop i).length
  · obtain ⟨c, hc⟩ := isSome_of_gap_lt seen hlt
    rw [List.drop_drop] at hc
    rw [codesFrom_some hc, endOf]
  · rw [List.length_drop] at hlt
    rw [codesFrom_of_le (by omega), endOf]
    omega

/-- The NAL units from the one on that starts at `i`. -/
def nalsFrom (data : List UInt8) (i : ℕ) : List (List UInt8) :=
  nalsBetween data ((i, i) :: codesFrom data i)

/-- Only the end of a start code matters for the NAL unit behind it. -/
theorem nalsBetween_eq_nalsFrom (data : List UInt8) (start i : ℕ) :
    nalsBetween data ((start, i) :: codesFrom data i) = nalsFrom data i := by
  rw [nalsFrom, nalsBetween_cons, nalsBetween_cons]

/-- The NAL units from a start code on. -/
theorem nalsBetween_codesFrom {data : List UInt8} {i c : ℕ} (h : seen (data.drop i) = some c) :
    nalsBetween data (codesFrom data i) = nalsFrom data (i + c) := by
  rw [codesFrom_some h, nalsBetween_eq_nalsFrom]

/-- **One NAL unit, if it is not empty, and those from the next start code on.** -/
theorem nalsFrom_eq {data : List UInt8} {i : ℕ} (h : i ≤ data.length) :
    nalsFrom data i =
      (if 0 < gap seen (data.drop i) then [(data.drop i).take (gap seen (data.drop i))] else []) ++
        nalsBetween data (codesFrom data (i + gap seen (data.drop i))) := by
  rw [nalsFrom, nalsBetween_cons, endOf_codesFrom h, ← codesFrom_gap, slice,
    Nat.add_sub_cancel_left]
  by_cases hgap : 0 < gap seen (data.drop i)
  · rw [if_pos (by omega), if_pos hgap]
    rfl
  · rw [if_neg (by omega), if_neg hgap]
    rfl

/-- Data that begins with a start code is split behind it. -/
theorem splitNalUnits_eq {data : List UInt8} {c : ℕ} (h : seen data = some c) :
    splitNalUnits data = nalsFrom data c := by
  have hseen : seen (data.drop 0) = some c := h
  have hcodes : findStartCodes data = (0, 0 + c) :: codesFrom data (0 + c) :=
    codesFrom_some hseen
  rw [splitNalUnits, hcodes]
  dsimp only
  rw [nalsBetween_eq_nalsFrom, Nat.zero_add]

/-! ### Splitting undoes joining -/

/-- A NAL unit in which no start code begins, whatever follows it. -/
structure CleanNal (nal : List UInt8) : Prop where
  ne_nil : nal ≠ []
  noCode : ¬ [0x00, 0x00, 0x01] <:+: nal
  noZeros : ¬ [0x00, 0x00, 0x00] <:+: nal
  last : nal.getLast? ≠ some 0x00

/-- NAL units, each after a start code of four bytes or of three. -/
def annexB (units : List (Bool × List UInt8)) : List UInt8 :=
  units.flatMap fun unit => (if unit.1 then code4 else code3) ++ unit.2

theorem codeLen_eq_none {l : List UInt8}
    (h : ∀ x r, x = 0x00 ∨ x = 0x01 → l ≠ 0x00 :: 0x00 :: x :: r) : codeLen l = none := by
  unfold codeLen
  split
  · rename_i hcode
    obtain ⟨r, rfl⟩ := hcode
    exact absurd rfl (h 0x00 (0x01 :: r) (.inl rfl))
  · split
    · rename_i hcode
      obtain ⟨r, rfl⟩ := hcode
      exact absurd rfl (h 0x01 r (.inr rfl))
    · rfl

/-- **No start code begins in a clean NAL unit**: the two zero bytes it begins with would be the last
bytes of the unit, or stand before a third one in it. -/
theorem CleanNal.codeLen_drop {nal : List UInt8} (h : CleanNal nal) (r : List UInt8) {k : ℕ}
    (hk : k < nal.length) : codeLen (nal.drop k ++ r) = none := by
  have hsuffix : nal.drop k <:+ nal := List.drop_suffix k nal
  have hlast : (nal.drop k).getLast? = nal.getLast? := by
    rw [List.getLast?_drop, if_neg (by omega)]
  apply codeLen_eq_none
  intro x rest hx heq
  match hdrop : nal.drop k with
  | [] =>
      rw [List.drop_eq_nil_iff] at hdrop
      omega
  | [b] =>
      rw [hdrop] at heq hlast
      cases heq
      exact h.last hlast.symm
  | [b, b'] =>
      rw [hdrop] at heq hlast
      cases heq
      exact h.last hlast.symm
  | b :: b' :: b'' :: rest' =>
      rw [hdrop] at heq hsuffix
      cases heq
      have hinfix : [0x00, 0x00, x] <:+: nal :=
        (List.prefix_append [0x00, 0x00, x] rest').isInfix.trans hsuffix.isInfix
      obtain rfl | rfl := hx
      · exact h.noZeros hinfix
      · exact h.noCode hinfix

theorem seen_eq_none_of_codeLen {l : List UInt8} (h : codeLen l = none) : seen l = none := by
  rw [seen, h, ite_self]

/-- A clean NAL unit is passed. -/
theorem CleanNal.gap_append {nal : List UInt8} (h : CleanNal nal) (r : List UInt8) :
    gap seen (nal ++ r) = nal.length + gap seen r :=
  H264.gap_append seen fun _ hk => seen_eq_none_of_codeLen (h.codeLen_drop r hk)

/-- A start code in front of a NAL unit that is not empty is seen. -/
theorem seen_code_append {long : Bool} {nal r : List UInt8} (h : nal ≠ []) :
    seen ((if long then code4 else code3) ++ nal ++ r) = some (if long then 4 else 3) := by
  obtain ⟨b, nal, rfl⟩ := List.exists_cons_of_ne_nil h
  cases long with
  | true =>
      rw [seen, if_pos (by simp [code4])]
      exact if_pos (by simp [List.append_assoc])
  | false =>
      have hfour : ¬ code4 <+: code3 ++ b :: nal ++ r := by
        rintro ⟨t, ht⟩
        cases ht
      rw [seen, if_pos (by simp [code3])]
      exact (if_neg hfour).trans (if_pos (by simp [List.append_assoc]))

/-- Joined NAL units begin with a start code that is seen. -/
theorem seen_annexB {long : Bool} {nal : List UInt8} {units : List (Bool × List UInt8)}
    (h : ∀ unit ∈ (long, nal) :: units, CleanNal unit.2) :
    seen (annexB ((long, nal) :: units)) = some (if long then 4 else 3) := by
  rw [annexB, List.flatMap_cons]
  exact seen_code_append (h (long, nal) (List.mem_cons_self ..)).ne_nil

theorem gap_seen_annexB {units : List (Bool × List UInt8)}
    (h : ∀ unit ∈ units, CleanNal unit.2) : gap seen (annexB units) = 0 := by
  cases units with
  | nil => rfl
  | cons unit units => exact gap_of_some seen (seen_annexB h)

/-- What is found in joined NAL units, from where they start in the data. -/
theorem nalsBetween_annexB {data : List UInt8} : ∀ (units : List (Bool × List UInt8)) (i : ℕ),
    (∀ unit ∈ units, CleanNal unit.2) → data.drop i = annexB units →
    nalsBetween data (codesFrom data i) = units.map Prod.snd := by
  intro units
  induction units with
  | nil =>
      intro i _ hdrop
      have hlen : data.length ≤ i := List.drop_eq_nil_iff.1 hdrop
      rw [codesFrom_of_le (by omega)]
      rfl
  | cons unit units ih =>
      obtain ⟨long, nal⟩ := unit
      intro i hclean hdrop
      have hnal : CleanNal nal := hclean (long, nal) (List.mem_cons_self ..)
      have hunits : ∀ unit ∈ units, CleanNal unit.2 :=
        fun unit hunit => hclean unit (List.mem_cons_of_mem _ hunit)
      have hlen : 0 < nal.length := List.length_pos_of_ne_nil hnal.ne_nil
      have hseen : seen (data.drop i) = some (if long then 4 else 3) := by
        rw [hdrop]
        exact seen_annexB hclean
      have hcode : (if long then code4 else code3).length = if long then 4 else 3 := by
        cases long with
        | true => rfl
        | false => rfl
      generalize (if long then 4 else 3) = c at hseen hcode
      have hstart : data.drop (i + c) = nal ++ annexB units := by
        rw [← List.drop_drop, hdrop, annexB, List.flatMap_cons, List.append_assoc]
        exact List.drop_left' hcode
      have hgap : gap seen (data.drop (i + c)) = nal.length := by
        rw [hstart, hnal.gap_append, gap_seen_annexB hunits, Nat.add_zero]
      have hrest : data.drop (i + c + nal.length) = annexB units := by
        rw [← List.drop_drop, hstart, List.drop_left]
      have hbound : i + c ≤ data.length := by
        have := congrArg List.length hstart
        rw [List.length_drop, List.length_append] at this
        omega
      rw [nalsBetween_codesFrom hseen, nalsFrom_eq hbound, hgap, if_pos hlen, hstart,
        List.take_left, ih _ hunits hrest]
      rfl

/-- **Splitting undoes joining**: whatever start codes stand before them. -/
theorem splitNalUnits_annexB (units : List (Bool × List UInt8)) (hne : units ≠ [])
    (hclean : ∀ unit ∈ units, CleanNal unit.2) :
    splitNalUnits (annexB units) = units.map Prod.snd := by
  obtain ⟨⟨long, nal⟩, units, rfl⟩ := List.exists_cons_of_ne_nil hne
  have hseen := seen_annexB hclean
  have hall := @nalsBetween_annexB (annexB ((long, nal) :: units)) _ 0 hclean rfl
  have hcode : seen ((annexB ((long, nal) :: units)).drop 0) = some (if long then 4 else 3) := hseen
  rw [nalsBetween_codesFrom hcode, Nat.zero_add] at hall
  rw [splitNalUnits_eq hseen, hall]

/-- A unit that begins with a zero byte, one with two zero bytes in it, and one of a single byte. -/
theorem splitNalUnits_annexB_three :
    splitNalUnits (annexB [(true, [0x00, 0x67]), (false, [0x65, 0x00, 0x00, 0x02]),
      (false, [0x01])]) = [[0x00, 0x67], [0x65, 0x00, 0x00, 0x02], [0x01]] :=
  splitNalUnits_annexB [(true, [0x00, 0x67]), (false, [0x65, 0x00, 0x00, 0x02]), (false, [0x01])]
    (by decide) (by
      simp only [List.forall_mem_cons, List.not_mem_nil, false_implies, implies_true, and_true]
      exact ⟨⟨by decide, by decide, by decide, by decide⟩,
        ⟨by decide, by decide, by decide, by decide⟩,
        ⟨by decide, by decide, by decide, by decide⟩⟩)

end H264

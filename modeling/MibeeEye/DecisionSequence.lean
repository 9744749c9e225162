/-
**The sequence of a decision.**

`assemble_sequence` of `crates/streaming/src/decision.rs` lays out a question for the decision model:
`[CLS] head [SEP] ([MASK] option)… [SEP] state [SEP]`.  The head and the options share a budget: the
options are cut to 48 tokens each, and evenly to fewer if that leaves less than 16 for the head.  What is
too long all the same is cut off at the end, and the markers behind it are dropped.

Main definitions:

* `Decision.assembleSequence` — the sequence and its markers;
* `Decision.keptLengths`, `Decision.headKept`, `Decision.fixedLength` — the lengths of its parts, by the
  lengths of what is laid out.

Main results:

* `Decision.squeeze_eq` — **what the budget leaves of the options**;
* `Decision.assembleSequence_eq` — the sequence, where the budget can be computed.
-/

import MibeeEye.CheckedArithmetic
import MibeeEye.Segments

set_option relaxedAutoImplicit false
set_option autoImplicit false

namespace Decision

/-! ### The sequence -/

/-- `SpecialTokens` -/
structure SpecialTokens where
  cls : ℤ
  sep : ℤ
  mask : ℤ
  deriving DecidableEq, Repr

/-- `OPTION_TOKEN_CAP` -/
def optionTokenCap : ℕ := 48

/-- `n as i64`. -/
def asI64 (n : ℕ) : ℤ := (n : ℤ).bmod (2 ^ 64)

/-- An option behind its `[MASK]`. -/
def maskedOption (mask : ℤ) (o : List ℤ) : List ℤ := mask :: o.take optionTokenCap

/-- The tokens of all options. -/
def total (options : List (List ℤ)) : ℤ := (options.map fun o => (o.length : ℤ)).sum

/-- The options are cut evenly if they leave less than 16 tokens of the limit. -/
def squeeze (options : List (List ℤ)) (limit : ℤ) : Checked.Run Empty (List (List ℤ) × ℤ) := do
  let budget ← Checked.signed 63 (limit - total options)
  if budget < 16 then
    let room ← Checked.signed 63 (limit - 16)
    let per := (max (room.tdiv (max options.length 1 : ℕ)) 4).toNat
    let options := options.map (List.take per)
    let budget ← Checked.signed 63 (limit - total options)
    return (options, budget)
  else return (options, budget)

/-- `(head_ids.len() as i64).clamp(0, budget.max(8)) as usize`. -/
def headKeep (headLength : ℕ) (budget : ℤ) : ℕ := (max 0 (min (headLength : ℤ) (max budget 8))).toNat

/-- The sequence up to the state. -/
def fixedPart (sp : SpecialTokens) (head : List ℤ) (options : List (List ℤ)) : List ℤ :=
  sp.cls :: head ++ [sp.sep] ++ options.flatten ++ [sp.sep]

/-- The parts one after another, cut off at the end. -/
def layOut (sp : SpecialTokens) (head : List ℤ) (options : List (List ℤ)) (stateIds : List ℤ)
    (maxLen : ℕ) : List ℤ × List ℕ :=
  let markers := Segments.starts (sp.cls :: head ++ [sp.sep]).length options
  let ids := fixedPart sp head options
  let room := maxLen - (ids.length + 1)
  let ids := (ids ++ stateIds.take room ++ [sp.sep]).take maxLen
  (ids, markers.filter fun m => decide (m < ids.length))

/-- `assemble_sequence` -/
def assembleSequence (sp : SpecialTokens) (headIds : List ℤ) (optIds : List (List ℤ))
    (stateIds : List ℤ) (maxLen headMaxLen : ℕ) : Checked.Run Empty (List ℤ × List ℕ) := do
  let (options, budget) ← squeeze (optIds.map (maskedOption sp.mask)) (asI64 headMaxLen)
  return layOut sp (headIds.take (headKeep headIds.length budget)) options stateIds maxLen

/-! ### The lengths of its parts -/

/-- The lengths of the options behind their `[MASK]`. -/
def cappedLengths (lengths : List ℕ) : List ℕ := lengths.map fun n => min n optionTokenCap + 1

/-- What the budget leaves to each option. -/
def perOption (limit : ℤ) (count : ℕ) : ℕ := (max ((limit - 16).tdiv (max count 1 : ℕ)) 4).toNat

/-- The lengths of the options in the sequence. -/
def keptLengths (limit : ℤ) (lengths : List ℕ) : List ℕ :=
  if limit - (cappedLengths lengths).sum < 16 then
    (cappedLengths lengths).map (min (perOption limit lengths.length))
  else cappedLengths lengths

/-- The length of the head in the sequence. -/
def headKept (limit : ℤ) (headLength : ℕ) (lengths : List ℕ) : ℕ :=
  headKeep headLength (limit - (keptLengths limit lengths).sum)

/-- The length of the sequence up to the state. -/
def fixedLength (limit : ℤ) (headLength : ℕ) (lengths : List ℕ) : ℕ :=
  3 + headKept limit headLength lengths + (keptLengths limit lengths).sum

/-- The budget can be computed in 64 bits. -/
def InRange (limit : ℤ) (lengths : List ℕ) : Prop :=
  -2 ^ 63 + max 16 ((cappedLengths lengths).sum : ℤ) ≤ limit

instance (limit : ℤ) (lengths : List ℕ) : Decidable (InRange limit lengths) :=
  inferInstanceAs (Decidable (-2 ^ 63 + max 16 ((cappedLengths lengths).sum : ℤ) ≤ limit))

/-- The options in the sequence. -/
def keptOptions (mask limit : ℤ) (optIds : List (List ℤ)) : List (List ℤ) :=
  if limit - (cappedLengths (optIds.map List.length)).sum < 16 then
    optIds.map fun o => (maskedOption mask o).take (perOption limit optIds.length)
  else optIds.map (maskedOption mask)

variable {mask limit : ℤ} {options optIds : List (List ℤ)}

theorem total_eq (options : List (List ℤ)) : total options = (options.map List.length).sum := by
  induction options with
  | nil => rfl
  | cons o options ih =>
      rw [total, List.map_cons, List.sum_cons, ← total, ih, List.map_cons, List.sum_cons]
      push_cast
      rfl

theorem lengths_maskedOption (mask : ℤ) (optIds : List (List ℤ)) :
    (optIds.map (maskedOption mask)).map List.length = cappedLengths (optIds.map List.length) := by
  rw [List.map_map, cappedLengths, List.map_map]
  refine List.map_congr_left fun o _ => ?_
  simp [maskedOption, Nat.min_comm]

theorem lengths_keptOptions (mask limit : ℤ) (optIds : List (List ℤ)) :
    (keptOptions mask limit optIds).map List.length = keptLengths limit (optIds.map List.length) := by
  rw [keptOptions, keptLengths]
  split
  · rw [← lengths_maskedOption mask, List.map_map, List.map_map, List.map_map, List.length_map]
    refine List.map_congr_left fun o _ => ?_
    simp
  · exact lengths_maskedOption mask optIds

/-- What was cut is not longer. -/
theorem sum_keptLengths_le (limit : ℤ) (lengths : List ℕ) :
    (keptLengths limit lengths).sum ≤ (cappedLengths lengths).sum := by
  rw [keptLengths]
  split
  · generalize cappedLengths lengths = capped
    induction capped with
    | nil => exact Nat.le_refl _
    | cons n capped ih =>
        rw [List.map_cons, List.sum_cons, List.sum_cons]
        exact Nat.add_le_add (Nat.min_le_right _ _) ih
  · exact Nat.le_refl _

/-! ### Where the budget can be computed -/

theorem asI64_lt (n : ℕ) : asI64 n < 2 ^ 63 := Int.bmod_lt (by decide)

/-- A number that 63 bits hold is itself. -/
theorem asI64_of_lt {n : ℕ} (h : n < 2 ^ 63) : asI64 n = n :=
  Int.bmod_eq_of_le (by omega) (by omega)

theorem total_maskedOption (mask : ℤ) (optIds : List (List ℤ)) :
    total (optIds.map (maskedOption mask)) = (cappedLengths (optIds.map List.length)).sum := by
  rw [total_eq, lengths_maskedOption]

theorem total_keptOptions (mask limit : ℤ) (optIds : List (List ℤ)) :
    total (keptOptions mask limit optIds) = (keptLengths limit (optIds.map List.length)).sum := by
  rw [total_eq, lengths_keptOptions]

/-- **What the budget leaves of the options.** -/
theorem squeeze_eq (hlimit : limit < 2 ^ 63) (h : InRange limit (optIds.map List.length)) :
    squeeze (optIds.map (maskedOption mask)) limit =
      .ok (keptOptions mask limit optIds, limit - total (keptOptions mask limit optIds)) := by
  have hkept := sum_keptLengths_le limit (optIds.map List.length)
  rw [InRange] at h
  rw [squeeze, total_maskedOption, Checked.signed_eq (by omega), Checked.ok_bind]
  by_cases hfew : limit - (cappedLengths (optIds.map List.length)).sum < 16
  · have hcut : (optIds.map (maskedOption mask)).map (List.take (perOption limit optIds.length)) =
        keptOptions mask limit optIds := by
      rw [keptOptions, if_pos hfew, List.map_map]
      rfl
    rw [if_pos hfew, Checked.signed_eq (by omega), Checked.ok_bind, List.length_map, ← perOption]
    simp only [hcut]
    rw [Checked.signed_eq]
    · rfl
    · rw [total_keptOptions]
      omega
  · have hall : optIds.map (maskedOption mask) = keptOptions mask limit optIds := by
      rw [keptOptions, if_neg hfew]
    rw [if_neg hfew, ← total_maskedOption mask, hall]
    rfl

theorem squeeze_of_not_inRange (h : ¬ InRange limit (optIds.map List.length)) :
    squeeze (optIds.map (maskedOption mask)) limit = Checked.panics := by
  rw [InRange] at h
  rw [squeeze, total_maskedOption]
  by_cases hfirst : -2 ^ 63 ≤ limit - (cappedLengths (optIds.map List.length)).sum ∧
      limit - (cappedLengths (optIds.map List.length)).sum < 2 ^ 63
  · have hfew : limit - (cappedLengths (optIds.map List.length)).sum < 16 := by omega
    rw [Checked.signed_eq hfirst, Checked.ok_bind, if_pos hfew, Checked.signed, if_neg (by omega)]
    rfl
  · rw [Checked.signed, if_neg hfirst]
    rfl

/-- **The sequence, where the budget can be computed.** -/
theorem assembleSequence_eq {sp : SpecialTokens} {headIds stateIds : List ℤ} {maxLen headMaxLen : ℕ}
    (h : InRange (asI64 headMaxLen) (optIds.map List.length)) :
    assembleSequence sp headIds optIds stateIds maxLen headMaxLen =
      .ok (layOut sp
        (headIds.take (headKept (asI64 headMaxLen) headIds.length (optIds.map List.length)))
        (keptOptions sp.mask (asI64 headMaxLen) optIds) stateIds maxLen) := by
  rw [assembleSequence, squeeze_eq (asI64_lt headMaxLen) h, Checked.ok_bind, total_keptOptions]
  rfl

/-- It cannot be computed for limits that are negative in 64 bits, and as far below as the options have
tokens. -/
theorem assembleSequence_of_not_inRange {sp : SpecialTokens} {headIds stateIds : List ℤ}
    {maxLen headMaxLen : ℕ} (h : ¬ InRange (asI64 headMaxLen) (optIds.map List.length)) :
    assembleSequence sp headIds optIds stateIds maxLen headMaxLen = Checked.panics := by
  rw [assembleSequence, squeeze_of_not_inRange h]
  rfl

end Decision

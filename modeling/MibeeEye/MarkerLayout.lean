/-
**The markers of a decision.**

Every option is to have its marker in the sequence: a `[MASK]`, behind which the option begins.  The state
is cut to the room that the head and the options leave.  But the budget of the head and the options may be
larger than the whole sequence, and then they are cut off at the end, with the last markers and the last
`[SEP]`.

Main definitions:

* `Decision.Marked`, `Decision.KeepsMarkers` — what is to hold of the sequence;
* `Decision.lastMarker` — the place of the last marker, before anything is cut off;
* `Decision.Fits` — the questions that fit.

Main results:

* `Decision.marked_layOut_iff` — **when the parts keep their markers**;
* `Decision.keepsMarkers_iff` — when the sequence does;
* `Decision.fits_of_budget` — a budget that is less than the sequence by three is enough.
-/

import MibeeEye.DecisionSequence
import Mathlib.Algebra.Order.BigOperators.Group.List
import Mathlib.Data.List.Flatten
import Mathlib.Data.List.Forall2
import Mathlib.Data.List.Infix

set_option relaxedAutoImplicit false
set_option autoImplicit false

namespace Decision

open Segments

/-! ### What is to hold -/

/-- What is to hold of a sequence and its markers: it has a length of at most `maxLen`, ends with `[SEP]`,
and has a marker for every option, in order, each with a `[MASK]` and what is kept of the option up to the
next one; before them is what is kept of the head. -/
structure Marked (sp : SpecialTokens) (headIds : List ℤ) (optIds : List (List ℤ)) (maxLen : ℕ)
    (r : List ℤ × List ℕ) : Prop where
  length_le : r.1.length ≤ maxLen
  ends : r.1.getLast? = some sp.sep
  count : r.2.length = optIds.length
  increasing : r.2.Pairwise (· < ·)
  marked : ∀ i m o, r.2[i]? = some m → optIds[i]? = some o →
    ∃ n ≤ o.length, sp.mask :: o.take n <+: r.1.drop m ∧ ∀ m', r.2[i + 1]? = some m' → m' = m + 1 + n
  head : ∃ k ≤ headIds.length, sp.cls :: headIds.take k ++ [sp.sep] <+: r.1 ∧
    ∀ m, r.2[0]? = some m → m = k + 2

/-- The sequence is assembled, and every option keeps its marker. -/
def KeepsMarkers (sp : SpecialTokens) (headIds : List ℤ) (optIds : List (List ℤ)) (stateIds : List ℤ)
    (maxLen headMaxLen : ℕ) : Prop :=
  ∃ r, assembleSequence sp headIds optIds stateIds maxLen headMaxLen = .ok r ∧
    Marked sp headIds optIds maxLen r

/-- The place of the last marker, before anything is cut off. -/
def lastMarker (limit : ℤ) (headLength : ℕ) (lengths : List ℕ) : ℕ :=
  2 + headKept limit headLength lengths + (keptLengths limit lengths).dropLast.sum

/-- A question fits: its budget can be computed, its last marker is in the sequence, and so is what is
before the state, unless the last token of the sequence is a `[SEP]` by chance. -/
structure Fits (sp : SpecialTokens) (headIds : List ℤ) (optIds : List (List ℤ))
    (maxLen headMaxLen : ℕ) : Prop where
  inRange : InRange (asI64 headMaxLen) (optIds.map List.length)
  marker : lastMarker (asI64 headMaxLen) headIds.length (optIds.map List.length) < maxLen
  ends : fixedLength (asI64 headMaxLen) headIds.length (optIds.map List.length) ≤ maxLen ∨
    ∃ o ∈ optIds.getLast?, (sp.mask :: o)[maxLen - 1 -
      lastMarker (asI64 headMaxLen) headIds.length (optIds.map List.length)]? = some sp.sep

/-! ### The parts -/

/-- What is kept of an option. -/
def IsKept (mask : ℤ) (o s : List ℤ) : Prop := ∃ n ≤ o.length, s = mask :: o.take n

variable {sp : SpecialTokens} {headIds stateIds head : List ℤ} {optIds options : List (List ℤ)}
  {maxLen headMaxLen : ℕ} {mask limit : ℤ}

theorem isKept_take {o : List ℤ} (n : ℕ) : IsKept mask o (mask :: o.take n) :=
  ⟨min n o.length, Nat.min_le_right _ _, by rw [← List.take_eq_take_min]⟩

/-- At least four tokens are kept of an option. -/
theorem perOption_pos (limit : ℤ) (count : ℕ) : 0 < perOption limit count := by
  rw [perOption]
  omega

/-- **What the budget leaves of the options** begins with their `[MASK]`s. -/
theorem isKept_keptOptions (mask limit : ℤ) (optIds : List (List ℤ)) :
    List.Forall₂ (IsKept mask) optIds (keptOptions mask limit optIds) := by
  rw [keptOptions]
  split
  · refine List.forall₂_map_right_iff.2 (List.forall₂_same.2 fun o _ => ?_)
    obtain ⟨per, hper⟩ := Nat.exists_eq_succ_of_ne_zero (perOption_pos limit optIds.length).ne'
    rw [hper, maskedOption, List.take_succ_cons, List.take_take]
    exact isKept_take _
  · exact List.forall₂_map_right_iff.2 (List.forall₂_same.2 fun o _ => isKept_take _)

theorem ne_nil_of_isKept (h : List.Forall₂ (IsKept mask) optIds options) : ∀ s ∈ options, s ≠ [] := by
  intro s hs
  obtain ⟨i, hi⟩ := List.mem_iff_getElem?.1 hs
  obtain ⟨hlt, rfl⟩ := List.getElem?_eq_some_iff.1 hi
  obtain ⟨n, -, hn⟩ := h.get (h.length_eq ▸ hlt) hlt
  rw [List.get_eq_getElem] at hn
  rw [hn]
  exact List.cons_ne_nil _ _

/-- What is kept of an option, by their common place. -/
theorem isKept_of_getElem? (h : List.Forall₂ (IsKept mask) optIds options) {i : ℕ} {o s : List ℤ}
    (ho : optIds[i]? = some o) (hs : options[i]? = some s) : IsKept mask o s := by
  obtain ⟨hi, rfl⟩ := List.getElem?_eq_some_iff.1 ho
  obtain ⟨hj, rfl⟩ := List.getElem?_eq_some_iff.1 hs
  exact h.get hi hj

/-! ### The sequence that is cut off -/

/-- The length of the sequence up to the state. -/
theorem length_fixedPart (sp : SpecialTokens) (head : List ℤ) (options : List (List ℤ)) :
    (fixedPart sp head options).length = 3 + head.length + options.flatten.length := by
  simp [fixedPart]
  omega

/-- All that is before the cut. -/
theorem layOut_fst (sp : SpecialTokens) (head : List ℤ) (options : List (List ℤ)) (stateIds : List ℤ)
    (maxLen : ℕ) : ∃ rest, (layOut sp head options stateIds maxLen).1 =
      (fixedPart sp head options ++ rest).take maxLen :=
  ⟨_, congrArg (List.take maxLen) (List.append_assoc _ _ _)⟩

/-- **The last token of the sequence.** -/
theorem getLast?_layOut (hpos : 0 < maxLen) :
    (layOut sp head options stateIds maxLen).1.getLast? = some sp.sep ↔
      (fixedPart sp head options).length ≤ maxLen ∨
        (fixedPart sp head options)[maxLen - 1]? = some sp.sep := by
  have hlast : (fixedPart sp head options).getLast? = some sp.sep := by
    rw [fixedPart, List.getLast?_append]
    rfl
  rw [layOut]
  simp only
  by_cases hfits : (fixedPart sp head options).length + 1 ≤ maxLen
  · -- the state is cut to the room that is left
    refine iff_of_true ?_ (Or.inl (by omega))
    rw [List.take_of_length_le]
    · rw [List.getLast?_append]
      rfl
    · rw [List.length_append, List.length_append, List.length_take, List.length_singleton]
      omega
  · have hroom : maxLen - ((fixedPart sp head options).length + 1) = 0 := by omega
    rw [hroom, List.take_zero, List.append_nil, List.take_append_of_le_length (by omega),
      List.getLast?_take, if_neg (by omega)]
    by_cases heq : (fixedPart sp head options).length = maxLen
    · rw [← heq, ← List.getLast?_eq_getElem?, hlast]
      simp
    · have hlt : maxLen - 1 < (fixedPart sp head options).length := by omega
      rw [List.getElem?_eq_getElem hlt, Option.some_or]
      exact ⟨Or.inr, fun h => h.resolve_left (by omega)⟩

/-- The last option at the end of what is before the state. -/
theorem getElem?_fixedPart {s : List ℤ} (hs : options.getLast? = some s) {j : ℕ} (hj : j < s.length) :
    (fixedPart sp head options)[2 + head.length + options.dropLast.flatten.length + j]? = s[j]? := by
  have hdrop := drop_last_start (sp.cls :: head ++ [sp.sep]) hs [sp.sep]
  have hstart : (sp.cls :: head ++ [sp.sep]).length = 2 + head.length := by
    simp
    omega
  rw [hstart] at hdrop
  rw [← List.getElem?_drop, fixedPart, hdrop, List.getElem?_append_left hj]

/-! ### Its markers -/

theorem length_start (sp : SpecialTokens) (head : List ℤ) :
    (sp.cls :: head ++ [sp.sep]).length = 2 + head.length := by
  simp
  omega

theorem layOut_snd (sp : SpecialTokens) (head : List ℤ) (options : List (List ℤ)) (stateIds : List ℤ)
    (maxLen : ℕ) : (layOut sp head options stateIds maxLen).2 =
      (starts (2 + head.length) options).filter fun m =>
        decide (m < (layOut sp head options stateIds maxLen).1.length) := by
  rw [← length_start sp head]
  rfl

theorem length_layOut_le (sp : SpecialTokens) (head : List ℤ) (options : List (List ℤ))
    (stateIds : List ℤ) (maxLen : ℕ) :
    (layOut sp head options stateIds maxLen).1.length ≤ maxLen := by
  obtain ⟨rest, hids⟩ := layOut_fst sp head options stateIds maxLen
  rw [hids, List.length_take]
  exact Nat.min_le_left _ _

/-- All markers are kept if the last one is before the cut. -/
theorem markers_layOut (hne : options ≠ [])
    (hlast : 2 + head.length + options.dropLast.flatten.length < maxLen) :
    (layOut sp head options stateIds maxLen).2 = starts (2 + head.length) options := by
  rw [layOut_snd, List.filter_eq_self]
  intro m hm
  obtain ⟨rest, hids⟩ := layOut_fst sp head options stateIds maxLen
  have hcut := (starts_lt_iff hne).2 hlast m hm
  have hpart : m < (fixedPart sp head options).length := by
    refine (starts_lt_iff hne).2 ?_ m hm
    have hle : options.dropLast.flatten.length ≤ options.flatten.length :=
      (List.dropLast_sublist options).flatten.length_le
    rw [length_fixedPart]
    omega
  rw [hids, List.length_take, List.length_append]
  exact decide_eq_true (by omega)

/-- If all markers are kept, the last one is before the cut. -/
theorem last_lt_of_count (hne : options ≠ [])
    (hcount : (layOut sp head options stateIds maxLen).2.length = options.length) :
    2 + head.length + options.dropLast.flatten.length < maxLen := by
  rw [layOut_snd, ← length_starts (2 + head.length) options, List.length_filter_eq_length_iff] at hcount
  refine (starts_lt_iff hne).1 fun m hm => ?_
  exact Nat.lt_of_lt_of_le (of_decide_eq_true (hcount m hm)) (length_layOut_le _ _ _ _ _)

/-- **What is behind a marker.** -/
theorem marked_of_start {rest : List ℤ} (hkept : List.Forall₂ (IsKept sp.mask) optIds options)
    (hlt : ∀ m ∈ starts (2 + head.length) options, m < maxLen) {i m : ℕ} {o : List ℤ}
    (hm : (starts (2 + head.length) options)[i]? = some m) (ho : optIds[i]? = some o) :
    ∃ n ≤ o.length, sp.mask :: o.take n <+: ((fixedPart sp head options ++ rest).take maxLen).drop m ∧
      ∀ m', (starts (2 + head.length) options)[i + 1]? = some m' → m' = m + 1 + n := by
  have hmax := hlt m (List.mem_of_getElem? hm)
  rw [getElem?_starts, Option.map_eq_some_iff] at hm
  obtain ⟨s, hs, rfl⟩ := hm
  obtain ⟨n, hn, rfl⟩ := isKept_of_getElem? hkept ho hs
  have hdrop := drop_start (sp.cls :: head ++ [sp.sep]) hs ([sp.sep] ++ rest)
  rw [length_start, ← List.append_assoc] at hdrop
  -- the option is cut off with the sequence, if it is the last one
  obtain ⟨room, hroom⟩ : ∃ room, maxLen - (2 + head.length + (options.take i).flatten.length) = room + 1 :=
    ⟨_, (Nat.succ_pred_eq_of_pos (by omega)).symm⟩
  refine ⟨min room n, (Nat.min_le_right _ _).trans hn, ?_, ?_⟩
  · rw [List.drop_take, fixedPart, hdrop, hroom, ← List.take_take, ← List.take_succ_cons]
    rw [List.append_assoc]
    exact List.IsPrefix.take (List.prefix_append _ _) _
  · intro m' hm'
    have hnext := hlt m' (List.mem_of_getElem? hm')
    rw [getElem?_starts, Option.map_eq_some_iff] at hm'
    obtain ⟨s', -, rfl⟩ := hm'
    rw [length_take_succ hs, List.length_cons, List.length_take, Nat.min_eq_left hn] at hnext ⊢
    omega

/-- **When the parts keep their markers**: when the last one is before the cut, and what is before the
state is too or has a `[SEP]` at its end. -/
theorem marked_layOut_iff {k : ℕ} (hk : k ≤ headIds.length) (hne : optIds ≠ [])
    (hkept : List.Forall₂ (IsKept sp.mask) optIds options) :
    Marked sp headIds optIds maxLen (layOut sp (headIds.take k) options stateIds maxLen) ↔
      2 + k + options.dropLast.flatten.length < maxLen ∧
        ((fixedPart sp (headIds.take k) options).length ≤ maxLen ∨
          (fixedPart sp (headIds.take k) options)[maxLen - 1]? = some sp.sep) := by
  have hlength : (headIds.take k).length = k := List.length_take_of_le hk
  have hoptions : options ≠ [] := by
    rintro rfl
    exact hne (List.forall₂_nil_right_iff.1 hkept)
  constructor
  · intro h
    have hlast := last_lt_of_count hoptions (h.count.trans hkept.length_eq)
    rw [hlength] at hlast
    exact ⟨hlast, (getLast?_layOut (by omega)).1 h.ends⟩
  · rintro ⟨hlast, hends⟩
    rw [← hlength] at hlast
    have hmarkers : (layOut sp (headIds.take k) options stateIds maxLen).2 =
        starts (2 + (headIds.take k).length) options := markers_layOut hoptions hlast
    have hlt := (starts_lt_iff hoptions).2 hlast
    obtain ⟨rest, hids⟩ := layOut_fst sp (headIds.take k) options stateIds maxLen
    refine ⟨length_layOut_le _ _ _ _ _, (getLast?_layOut (by omega)).2 hends, ?_, ?_, ?_, ?_⟩
    · rw [hmarkers, length_starts, hkept.length_eq]
    · rw [hmarkers]
      exact pairwise_starts (ne_nil_of_isKept hkept)
    · intro i m o hm ho
      rw [hmarkers] at hm ⊢
      rw [hids]
      exact marked_of_start hkept hlt hm ho
    · refine ⟨k, hk, ?_, ?_⟩
      · rw [hids, List.prefix_take_iff, length_start, fixedPart, List.append_assoc, List.append_assoc]
        exact ⟨List.prefix_append _ _, by omega⟩
      · intro m hm
        rw [hmarkers, getElem?_starts, Option.map_eq_some_iff] at hm
        obtain ⟨s, -, rfl⟩ := hm
        rw [hlength]
        simp
        omega

/-! ### The whole sequence -/

/-- No more of the head is kept than there is. -/
theorem headKept_le (limit : ℤ) (headLength : ℕ) (lengths : List ℕ) :
    headKept limit headLength lengths ≤ headLength := by
  rw [headKept, headKeep]
  omega

theorem length_keptOptions (mask limit : ℤ) (optIds : List (List ℤ)) :
    (keptOptions mask limit optIds).flatten.length =
      (keptLengths limit (optIds.map List.length)).sum := by
  rw [List.length_flatten, lengths_keptOptions]

theorem length_keptOptions_dropLast (mask limit : ℤ) (optIds : List (List ℤ)) :
    (keptOptions mask limit optIds).dropLast.flatten.length =
      (keptLengths limit (optIds.map List.length)).dropLast.sum := by
  rw [List.length_flatten, List.map_dropLast, lengths_keptOptions]

/-- A token of the last option, where the sequence is cut off in it. -/
theorem getElem?_last (hkept : List.Forall₂ (IsKept sp.mask) optIds options) {o : List ℤ}
    (ho : optIds.getLast? = some o)
    (hlast : 2 + head.length + options.dropLast.flatten.length < maxLen)
    (hlong : maxLen < (fixedPart sp head options).length) :
    (fixedPart sp head options)[maxLen - 1]? =
      (sp.mask :: o)[maxLen - 1 - (2 + head.length + options.dropLast.flatten.length)]? := by
  obtain ⟨s, hs⟩ : ∃ s, options.getLast? = some s := by
    rw [← Option.isSome_iff_exists, List.getLast?_isSome]
    rintro rfl
    rw [List.forall₂_nil_right_iff.1 hkept] at ho
    cases ho
  have hs' := hs
  rw [List.getLast?_eq_getElem?, ← hkept.length_eq] at hs'
  rw [List.getLast?_eq_getElem?] at ho
  obtain ⟨n, hn, hkeep⟩ := isKept_of_getElem? hkept ho hs'
  have hsum : options.flatten.length = options.dropLast.flatten.length + s.length := by
    have hend := congrArg List.length (drop_last_start [] hs [])
    simp only [List.nil_append, List.append_nil, List.length_drop, List.length_nil, Nat.zero_add] at hend
    have hle := (List.dropLast_sublist options).flatten.length_le
    omega
  rw [length_fixedPart] at hlong
  have hj : maxLen - 1 - (2 + head.length + options.dropLast.flatten.length) < s.length := by omega
  have hplace : maxLen - 1 = 2 + head.length + options.dropLast.flatten.length +
      (maxLen - 1 - (2 + head.length + options.dropLast.flatten.length)) := by omega
  have hprefix : s ++ o.drop n = sp.mask :: o := by
    rw [hkeep, List.cons_append, List.take_append_drop]
  rw [hplace, getElem?_fixedPart hs (by omega), ← hplace, ← hprefix, List.getElem?_append_left hj]

/-- What is before the state, by the question. -/
def beforeState (sp : SpecialTokens) (limit : ℤ) (headIds : List ℤ) (optIds : List (List ℤ)) : List ℤ :=
  fixedPart sp (headIds.take (headKept limit headIds.length (optIds.map List.length)))
    (keptOptions sp.mask limit optIds)

theorem length_beforeState (sp : SpecialTokens) (limit : ℤ) (headIds : List ℤ)
    (optIds : List (List ℤ)) :
    (beforeState sp limit headIds optIds).length =
      fixedLength limit headIds.length (optIds.map List.length) := by
  rw [beforeState, length_fixedPart, List.length_take_of_le (headKept_le _ _ _), length_keptOptions,
    fixedLength]

/-- The last token of a sequence that is cut off in the last option. -/
theorem getElem?_beforeState {o : List ℤ} (ho : optIds.getLast? = some o)
    (hlast : lastMarker limit headIds.length (optIds.map List.length) < maxLen)
    (hlong : maxLen < fixedLength limit headIds.length (optIds.map List.length)) :
    (beforeState sp limit headIds optIds)[maxLen - 1]? =
      (sp.mask :: o)[maxLen - 1 - lastMarker limit headIds.length (optIds.map List.length)]? := by
  have hcut := List.length_take_of_le (headKept_le limit headIds.length (optIds.map List.length))
  rw [lastMarker, ← length_keptOptions_dropLast sp.mask] at hlast ⊢
  rw [← length_beforeState sp] at hlong
  rw [← hcut] at hlast ⊢
  exact getElem?_last (isKept_keptOptions sp.mask limit optIds) ho hlast hlong

/-- **Every option keeps its marker exactly if the question fits.** -/
theorem keepsMarkers_iff (sp : SpecialTokens) (headIds stateIds : List ℤ) (maxLen headMaxLen : ℕ)
    (hne : optIds ≠ []) :
    KeepsMarkers sp headIds optIds stateIds maxLen headMaxLen ↔
      Fits sp headIds optIds maxLen headMaxLen := by
  by_cases hrange : InRange (asI64 headMaxLen) (optIds.map List.length)
  · have hlayout := @marked_layOut_iff sp headIds stateIds optIds _ maxLen _
      (headKept_le (asI64 headMaxLen) headIds.length (optIds.map List.length)) hne
      (isKept_keptOptions sp.mask (asI64 headMaxLen) optIds)
    rw [length_keptOptions_dropLast, ← lastMarker, ← beforeState, length_beforeState] at hlayout
    obtain ⟨o, ho⟩ : ∃ o, optIds.getLast? = some o :=
      Option.isSome_iff_exists.1 (List.getLast?_isSome.2 hne)
    rw [KeepsMarkers, assembleSequence_eq hrange]
    constructor
    · rintro ⟨r, hr, hmarked⟩
      cases hr
      obtain ⟨hlast, hends⟩ := hlayout.1 hmarked
      refine ⟨hrange, hlast, ?_⟩
      rcases Nat.lt_or_ge maxLen (fixedLength (asI64 headMaxLen) headIds.length
        (optIds.map List.length)) with hlong | hshort
      · refine Or.inr ⟨o, ho, ?_⟩
        rw [← getElem?_beforeState ho hlast hlong]
        exact hends.resolve_left (Nat.not_le.2 hlong)
      · exact Or.inl hshort
    · intro h
      refine ⟨_, rfl, hlayout.2 ⟨h.marker, ?_⟩⟩
      rcases Nat.lt_or_ge maxLen (fixedLength (asI64 headMaxLen) headIds.length
        (optIds.map List.length)) with hlong | hshort
      · obtain ⟨o', ho', hsep⟩ := h.ends.resolve_left (Nat.not_le.2 hlong)
        rw [getElem?_beforeState ho' h.marker hlong]
        exact Or.inr hsep
      · exact Or.inl hshort
  · rw [KeepsMarkers, assembleSequence_of_not_inRange hrange]
    refine iff_of_false ?_ fun h => hrange h.inRange
    rintro ⟨r, hr, -⟩
    cases hr

/-- A short question. -/
theorem keepsMarkers_short :
    KeepsMarkers ⟨1, 2, 0⟩ [10, 11, 12] [[20, 21], [30], [40, 41, 42]] [50, 51, 52, 53] 512 192 :=
  (keepsMarkers_iff ⟨1, 2, 0⟩ [10, 11, 12] [50, 51, 52, 53] 512 192 (by decide)).2
    ⟨by decide, by decide, Or.inl (by decide)⟩

/-- Of three long options in a sequence of 64 tokens, with the default budget, the third one loses its
marker. -/
theorem not_keepsMarkers_long :
    ¬ KeepsMarkers ⟨1, 2, 0⟩ [] (List.replicate 3 (List.replicate 48 20)) [] 64 192 := by
  rintro ⟨r, hr, hmarked⟩
  have hcount : (assembleSequence ⟨1, 2, 0⟩ [] (List.replicate 3 (List.replicate 48 20)) [] 64 192).map
      (fun r => r.2.length) = .ok 2 := by decide
  rw [hr] at hcount
  exact absurd ((Except.ok.inj hcount).symm.trans hmarked.count) (by decide)

/-! ### Budgets that are enough -/

theorem sum_keptLengths_le_mul {lengths : List ℕ}
    (h : limit - (cappedLengths lengths).sum < 16) :
    (keptLengths limit lengths).sum ≤ lengths.length * perOption limit lengths.length := by
  rw [keptLengths, if_pos h]
  have hle := List.sum_le_card_nsmul ((cappedLengths lengths).map
    (min (perOption limit lengths.length))) (perOption limit lengths.length) fun n hn => by
      obtain ⟨n', -, rfl⟩ := List.mem_map.1 hn
      exact Nat.min_le_left _ _
  simpa [cappedLengths] using hle

theorem perOption_eq {n : ℕ} (h : 16 ≤ n) (count : ℕ) :
    perOption n count = max ((n - 16) / max count 1) 4 := by
  have hsub : (n : ℤ) - 16 = ((n - 16 : ℕ) : ℤ) := by omega
  rw [perOption, hsub, ← Int.ofNat_tdiv]
  omega

/-- An option has no more than 48 tokens behind its `[MASK]`. -/
theorem sum_cappedLengths_le (lengths : List ℕ) :
    (cappedLengths lengths).sum ≤ lengths.length * 49 := by
  have hle := List.sum_le_card_nsmul (cappedLengths lengths) 49 fun n hn => by
    obtain ⟨n', -, rfl⟩ := List.mem_map.1 hn
    exact Nat.succ_le_succ (Nat.min_le_right _ _)
  simpa [cappedLengths] using hle

/-- **A budget that is less than the sequence by three is enough**, within the bounds that `load` and
`decide_choice` enforce. -/
theorem fits_of_budget (hne : optIds ≠ []) (hten : optIds.length ≤ 10) (hmax : 64 ≤ maxLen)
    (hhead : 32 ≤ headMaxLen) (hbudget : headMaxLen + 3 ≤ maxLen) (hsmall : headMaxLen < 2 ^ 63) :
    Fits sp headIds optIds maxLen headMaxLen := by
  have hcapped := sum_cappedLengths_le (optIds.map List.length)
  rw [List.length_map] at hcapped
  have hfixed : fixedLength headMaxLen headIds.length (optIds.map List.length) ≤ maxLen := by
    have hkeep : headKept headMaxLen headIds.length (optIds.map List.length) ≤
        max ((headMaxLen : ℤ) - (keptLengths headMaxLen (optIds.map List.length)).sum) 8 := by
      rw [headKept, headKeep]
      omega
    rw [fixedLength]
    by_cases hfew : (headMaxLen : ℤ) - (cappedLengths (optIds.map List.length)).sum < 16
    · have hsum := sum_keptLengths_le_mul hfew
      rw [List.length_map] at hsum
      -- the options have four tokens each, or no more than the budget less 16
      have hper : optIds.length * perOption headMaxLen optIds.length ≤ max (headMaxLen - 16) 40 := by
        rw [perOption_eq (by omega), Nat.max_eq_left (List.length_pos_iff.2 hne), ← Nat.mul_max_mul_left]
        exact max_le_max (Nat.mul_div_le _ _) (by omega)
      omega
    · rw [keptLengths, if_neg hfew] at hkeep ⊢
      omega
  have hlast : lastMarker headMaxLen headIds.length (optIds.map List.length) <
      fixedLength headMaxLen headIds.length (optIds.map List.length) := by
    have hle := (List.dropLast_sublist (keptLengths headMaxLen (optIds.map List.length))).sum_le_sum
      fun _ _ => Nat.zero_le _
    rw [lastMarker, fixedLength]
    omega
  rw [← asI64_of_lt hsmall] at hfixed hlast
  refine ⟨?_, hlast.trans_le hfixed, Or.inl hfixed⟩
  rw [InRange, asI64_of_lt hsmall]
  omega

end Decision

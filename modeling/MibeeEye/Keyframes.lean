/-
**Where the keyframes are.**

`find_keyframes` in `crates/protocols/src/h264.rs` returns the positions of the start codes of IDR NAL
units.  It goes through the NAL units and keeps a running offset, to which it adds the length of each
unit; the position of a unit is then the first start code at or behind that offset.  The offset leaves
out the start codes, and so it falls behind the true position by their lengths: it lies before an
earlier start code as soon as the NAL unit between the two is too short, and that earlier position is
returned.

Main definitions:

* `H264.parseNalHeader`, `H264.isKeyframe`, `H264.findKeyframes`;
* `H264.IdrAt`, `H264.KeyframeOffsets` — what should be returned;
* `H264.LongEnough` — each IDR unit follows a unit longer than all start codes before that one.

Main results:

* `H264.findKeyframes_eq` — the function goes through the start codes;
* `H264.chained_findStartCodesF` — start codes and NAL units follow each other without a gap;
* `H264.keyframeOffsets_iff` — **when the positions are right**.
-/

import MibeeEye.AnnexB
import Mathlib.Data.List.Sort

set_option relaxedAutoImplicit false
set_option autoImplicit false

namespace H264

open Wire

/-! ### Headers -/

/-- `NalUnitType`. -/
inductive NalUnitType
  | unspecified | slice | sliceA | sliceB | sliceC | idr | sei | sps | pps | aud | endOfSequence
  | endOfStream | filler | spsExt | prefixNal | subsetSps | sliceAux | reserved
  deriving DecidableEq, Repr

/-- `NalUnitType::try_from`. -/
def NalUnitType.tryFrom (value : UInt8) : Except String NalUnitType :=
  match value.toNat with
  | 0 => .ok .unspecified
  | 1 => .ok .slice
  | 2 => .ok .sliceA
  | 3 => .ok .sliceB
  | 4 => .ok .sliceC
  | 5 => .ok .idr
  | 6 => .ok .sei
  | 7 => .ok .sps
  | 8 => .ok .pps
  | 9 => .ok .aud
  | 10 => .ok .endOfSequence
  | 11 => .ok .endOfStream
  | 12 => .ok .filler
  | 13 => .ok .spsExt
  | 14 => .ok .prefixNal
  | 15 => .ok .subsetSps
  | 19 => .ok .sliceAux
  | n => if 24 ≤ n ∧ n ≤ 30 then .ok .reserved else .error s!"Invalid NAL unit type: {value}"

/-- `NalHeader`. -/
structure NalHeader where
  forbiddenZeroBit : UInt8
  nalRefIdc : UInt8
  nalUnitType : NalUnitType
  deriving DecidableEq, Repr

/-- `parse_nal_header`. -/
def parseNalHeader : List UInt8 → Except String (NalHeader × List UInt8)
  | [] => .error "Empty NAL unit data"
  | firstByte :: payload => do
      let forbiddenZeroBit := (firstByte >>> 7) &&& 0x01
      let nalRefIdc := (firstByte >>> 5) &&& 0x03
      let nalUnitTypeVal := firstByte &&& 0x1F
      if forbiddenZeroBit ≠ 0 then throw "Forbidden zero bit is set (invalid NAL unit)"
      else do
        let nalUnitType ← NalUnitType.tryFrom nalUnitTypeVal
        return (⟨forbiddenZeroBit, nalRefIdc, nalUnitType⟩, payload)

/-- `is_keyframe`: strict, whatever `nal_ref_idc` says. -/
def isKeyframe (nalUnitType : NalUnitType) (nalRefIdc : UInt8) : Bool :=
  if nalUnitType = .idr then true
  else if nalUnitType = .slice ∧ 0 < nalRefIdc then false
  else false

theorem isKeyframe_iff (nalUnitType : NalUnitType) (nalRefIdc : UInt8) :
    isKeyframe nalUnitType nalRefIdc = true ↔ nalUnitType = .idr := by
  unfold isKeyframe
  split
  · rename_i h
    exact iff_of_true rfl h
  · rename_i h
    rw [ite_self]
    exact iff_of_false (by decide) h

/-- A NAL unit whose header parses with the type of an IDR slice. -/
def isIdr (nal : List UInt8) : Bool :=
  match parseNalHeader nal with
  | .ok (header, _) => header.nalUnitType == .idr
  | .error _ => false

/-! ### The function -/

/-- The first start code at or behind an offset. -/
def startCodeFrom (data : List UInt8) (offset : ℕ) : Option ℕ :=
  ((findStartCodes data).find? fun code : ℕ × ℕ => offset ≤ code.1).map Prod.fst

/-- The loop of `find_keyframes` over the NAL units, with the offset so far. -/
@[grind =] def keyframeLoop (data : List UInt8) : List (List UInt8) → ℕ → List ℕ
  | [], _ => []
  | nalUnit :: nalUnits, offset =>
      let found := match parseNalHeader nalUnit with
        | .ok (header, _) =>
            if isKeyframe header.nalUnitType header.nalRefIdc then startCodeFrom data offset
            else none
        | .error _ => none
      found.toList ++ keyframeLoop data nalUnits (offset + nalUnit.length)

/-- **`find_keyframes`.** -/
def findKeyframes (data : List UInt8) : List ℕ := keyframeLoop data (splitNalUnits data) 0

/-- One turn of the loop. -/
theorem keyframeLoop_cons (data nalUnit : List UInt8) (nalUnits : List (List UInt8)) (offset : ℕ) :
    keyframeLoop data (nalUnit :: nalUnits) offset =
      (if isIdr nalUnit then (startCodeFrom data offset).toList else []) ++
      keyframeLoop data nalUnits (offset + nalUnit.length) := by
  rw [keyframeLoop, isIdr]
  cases parseNalHeader nalUnit with
  | error e => rfl
  | ok result =>
      have hidr : (result.1.nalUnitType == NalUnitType.idr) =
          isKeyframe result.1.nalUnitType result.1.nalRefIdc := by
        rw [Bool.eq_iff_iff, isKeyframe_iff, beq_iff_eq]
      simp only [hidr]
      split
      · rfl
      · rfl

/-! ### The start codes of the data -/

/-- Start codes from position `i` on: each ends before the next begins. -/
def Chained (data : List UInt8) : ℕ → List (ℕ × ℕ) → Prop
  | _, [] => True
  | i, (start, dataStart) :: codes =>
      i ≤ start ∧ start < dataStart ∧ dataStart ≤ data.length ∧ Chained data dataStart codes

theorem Chained.mono {data : List UInt8} {i j : ℕ} {codes : List (ℕ × ℕ)} (hij : i ≤ j)
    (h : Chained data j codes) : Chained data i codes := by
  cases codes with
  | nil => trivial
  | cons code codes => exact ⟨hij.trans h.1, h.2⟩

/-- **The start codes that are found follow each other.** -/
theorem chained_findStartCodesF (data : List UInt8) : ∀ fuel i,
    Chained data i (findStartCodesF data fuel i) := by
  intro fuel
  induction fuel with
  | zero =>
      intro i
      trivial
  | succ fuel ih =>
      intro i
      rw [findStartCodesF_step]
      split
      · cases hcode : codeLen (data.drop i) with
        | some c =>
            have hle := codeLen_le hcode
            rw [List.length_drop] at hle
            exact ⟨le_rfl, by omega, by omega, ih (i + c)⟩
        | none => exact (ih (i + 1)).mono (by omega)
      · trivial

/-! ### Going through the start codes -/

/-- The NAL unit behind a start code that is followed by the given ones. -/
def nalAt (data : List UInt8) (dataStart : ℕ) (codes : List (ℕ × ℕ)) : List UInt8 :=
  slice data dataStart (endOf data codes)

/-- The loop over the start codes. -/
def codesLoop (data : List UInt8) : List (ℕ × ℕ) → ℕ → List ℕ
  | [], _ => []
  | (_, dataStart) :: codes, offset =>
      (if isIdr (nalAt data dataStart codes) then (startCodeFrom data offset).toList else []) ++
      codesLoop data codes (offset + (nalAt data dataStart codes).length)

/-- A NAL unit that is dropped, because it is empty, is no keyframe and has no length. -/
theorem keyframeLoop_nalsBetween (data : List UInt8) : ∀ (codes : List (ℕ × ℕ)) (offset : ℕ),
    keyframeLoop data (nalsBetween data codes) offset = codesLoop data codes offset := by
  intro codes
  induction codes with
  | nil =>
      intro offset
      rfl
  | cons code codes ih =>
      obtain ⟨start, dataStart⟩ := code
      intro offset
      rw [nalsBetween_cons, codesLoop]
      split
      · rw [keyframeLoop_cons, ih]
        rfl
      · rename_i hempty
        have hnil : nalAt data dataStart codes = [] := by
          rw [nalAt, slice, show endOf data codes - dataStart = 0 by omega, List.take_zero]
        rw [hnil, ih]
        rfl

/-- **`find_keyframes` by the start codes.** -/
theorem findKeyframes_eq (data : List UInt8) :
    findKeyframes data = codesLoop data (findStartCodes data) 0 := by
  rw [← keyframeLoop_nalsBetween, findKeyframes, splitNalUnits]
  cases hcodes : findStartCodes data with
  | cons code codes => rfl
  | nil =>
      dsimp only
      split
      · rfl
      · -- one NAL unit, and no start code to report
        rw [keyframeLoop_cons, startCodeFrom, hcodes]
        split
        · rfl
        · rfl

/-! ### What should be returned -/

/-- An IDR NAL unit whose start code is at `p`. -/
def IdrAt (data : List UInt8) (p : ℕ) : Prop :=
  ∃ before dataStart after, findStartCodes data = before ++ (p, dataStart) :: after ∧
    isIdr (nalAt data dataStart after) = true

/-- The positions of the start codes of the IDR NAL units, in order and each once. -/
def KeyframeOffsets (data : List UInt8) (positions : List ℕ) : Prop :=
  positions.Pairwise (· < ·) ∧ ∀ p, p ∈ positions ↔ IdrAt data p

/-- These positions. -/
@[grind =] def idrPositions (data : List UInt8) : List (ℕ × ℕ) → List ℕ
  | [] => []
  | (start, dataStart) :: codes =>
      (if isIdr (nalAt data dataStart codes) then [start] else []) ++ idrPositions data codes

theorem mem_idrPositions {data : List UInt8} {codes : List (ℕ × ℕ)} {p : ℕ} :
    p ∈ idrPositions data codes ↔ ∃ before dataStart after,
      codes = before ++ (p, dataStart) :: after ∧ isIdr (nalAt data dataStart after) = true := by
  induction codes with
  | nil =>
      refine iff_of_false (by simp [idrPositions]) ?_
      rintro ⟨before, dataStart, after, h, -⟩
      exact absurd h.symm (by simp)
  | cons code codes ih =>
      obtain ⟨start, dataStart⟩ := code
      rw [idrPositions, List.mem_append, ih]
      constructor
      · rintro (hhead | ⟨before, ds, after, rfl, hidr⟩)
        · split at hhead
          · rename_i hidr
            obtain rfl := List.mem_singleton.1 hhead
            exact ⟨[], dataStart, codes, rfl, hidr⟩
          · cases hhead
        · exact ⟨(start, dataStart) :: before, ds, after, rfl, hidr⟩
      · rintro ⟨before, ds, after, h, hidr⟩
        cases before with
        | nil =>
            cases h
            exact .inl (by rw [if_pos hidr]; exact List.mem_singleton.2 rfl)
        | cons code before =>
            cases h
            exact .inr ⟨before, ds, after, rfl, hidr⟩

theorem pairwise_idrPositions {data : List UInt8} {i : ℕ} {codes : List (ℕ × ℕ)}
    (h : Chained data i codes) :
    (idrPositions data codes).Pairwise (· < ·) ∧ ∀ p ∈ idrPositions data codes, i ≤ p := by
  induction codes generalizing i with
  | nil => exact ⟨List.Pairwise.nil, by simp [idrPositions]⟩
  | cons code codes ih =>
      obtain ⟨start, dataStart⟩ := code
      obtain ⟨hstart, hlt, -, hrest⟩ := h
      obtain ⟨hpair, hle⟩ := ih hrest
      rw [idrPositions]
      split
      · refine ⟨List.pairwise_cons.2 ⟨?_, hpair⟩, ?_⟩
        · intro p hp
          have := hle p hp
          omega
        · intro p hp
          obtain rfl | hp := List.mem_cons.1 hp
          · exact hstart
          · have := hle p hp
            omega
      · refine ⟨hpair, fun p hp => ?_⟩
        have := hle p hp
        omega

/-- **The positions are determined.** -/
theorem keyframeOffsets_iff_eq {data : List UInt8} {positions : List ℕ} :
    KeyframeOffsets data positions ↔ positions = idrPositions data (findStartCodes data) := by
  have hpair := (pairwise_idrPositions (chained_findStartCodesF data data.length 0)).1
  constructor
  · rintro ⟨hsorted, hmem⟩
    exact hsorted.eq_of_mem_iff hpair fun p => (hmem p).trans mem_idrPositions.symm
  · rintro rfl
    exact ⟨hpair, fun p => mem_idrPositions⟩

/-! ### When they are returned -/

/-- The bytes of start codes. -/
def codeBytes (codes : List (ℕ × ℕ)) : ℕ := (codes.map fun code => code.2 - code.1).sum

theorem codeBytes_concat (codes : List (ℕ × ℕ)) (code : ℕ × ℕ) :
    codeBytes (codes ++ [code]) = codeBytes codes + (code.2 - code.1) := by
  simp [codeBytes]

/-- The NAL unit before the start code at `p` is longer than everything before it that is not in a
NAL unit: the bytes before the first start code, and the start codes before its own. -/
def LongBefore (data : List UInt8) (before : List (ℕ × ℕ)) (p : ℕ) : Prop :=
  ∀ earlier start dataStart, before = earlier ++ [(start, dataStart)] →
    gap seen data + codeBytes earlier < p - dataStart

/-- **Each IDR NAL unit but the first NAL unit follows a unit that is long enough.** -/
def LongEnough (data : List UInt8) : Prop :=
  ∀ before p dataStart after, findStartCodes data = before ++ (p, dataStart) :: after →
    isIdr (nalAt data dataStart after) = true → LongBefore data before p

section Loop

variable {data : List UInt8}

/-- The start codes before and behind one of them. -/
theorem Chained.append {i : ℕ} {before codes : List (ℕ × ℕ)}
    (h : Chained data i (before ++ codes)) :
    ∃ j, (∀ code ∈ before, code.1 < code.2 ∧ code.2 ≤ j) ∧ i ≤ j ∧ Chained data j codes := by
  induction before generalizing i with
  | nil => exact ⟨i, by simp, le_rfl, h⟩
  | cons code before ih =>
      obtain ⟨hstart, hlt, -, hrest⟩ := h
      obtain ⟨j, hbefore, hj, hcodes⟩ := ih hrest
      refine ⟨j, ?_, by omega, hcodes⟩
      intro code' hmem
      obtain rfl | hmem := List.mem_cons.1 hmem
      · exact ⟨hlt, hj⟩
      · exact hbefore code' hmem

/-- The first start code at or behind the offset is the one at `p`, unless an earlier one is. -/
theorem startCodeFrom_eq {before after : List (ℕ × ℕ)} {p dataStart offset : ℕ}
    (hcodes : findStartCodes data = before ++ (p, dataStart) :: after) (hoffset : offset ≤ p) :
    ∃ q, startCodeFrom data offset = some q ∧ (q = p ↔ ∀ code ∈ before, code.1 < offset) := by
  have hchain : Chained data 0 (before ++ (p, dataStart) :: after) := by
    rw [← hcodes]
    exact chained_findStartCodesF data _ 0
  obtain ⟨j, hbefore, -, hrest⟩ := hchain.append
  rw [startCodeFrom, hcodes, List.find?_append]
  cases hfind : before.find? fun code : ℕ × ℕ => offset ≤ code.1 with
  | none =>
      refine ⟨p, ?_, iff_of_true rfl ?_⟩
      · rw [Option.none_or, List.find?_cons_of_pos (by simpa using hoffset)]
        rfl
      · intro code hcode
        have := List.find?_eq_none.1 hfind code hcode
        simpa using this
  | some code =>
      have hmem := List.mem_of_find?_eq_some hfind
      have hle := List.find?_some hfind
      have hlt := hbefore code hmem
      have hp := hrest.1
      rw [decide_eq_true_iff] at hle
      refine ⟨code.1, rfl, iff_of_false (by omega) ?_⟩
      intro hall
      have := hall code hmem
      omega

/-- Where an earlier start code is not at or behind the offset, in terms of the NAL unit before. -/
theorem all_lt_iff_longBefore {before after : List (ℕ × ℕ)} {p dataStart offset : ℕ}
    (hcodes : findStartCodes data = before ++ (p, dataStart) :: after)
    (hoffset : p = gap seen data + codeBytes before + offset) :
    (∀ code ∈ before, code.1 < offset) ↔ LongBefore data before p := by
  obtain rfl | ⟨earlier, ⟨start, ds⟩, rfl⟩ := before.eq_nil_or_concat'
  · refine iff_of_true (by simp) ?_
    intro earlier start ds h
    exact absurd h.symm (by simp)
  have hchain : Chained data 0 (earlier ++ ((start, ds) :: (p, dataStart) :: after)) := by
    rw [List.append_cons, ← hcodes]
    exact chained_findStartCodesF data _ 0
  obtain ⟨j, hearlier, -, hstart, hlt, -, hds, -, -, -⟩ := hchain.append
  rw [codeBytes_concat] at hoffset
  dsimp only at hoffset
  constructor
  · intro hall earlier' start' ds' h
    obtain ⟨rfl, hsame⟩ := List.append_inj' h rfl
    cases hsame
    have := hall (start, ds) (by simp)
    dsimp only at this
    omega
  · intro hlong code hcode
    have := hlong earlier start ds rfl
    obtain hcode | hcode := List.mem_append.1 hcode
    · have := hearlier code hcode
      omega
    · obtain rfl := List.mem_singleton.1 hcode
      dsimp only
      omega

/-- A condition on every start code: on the first, and on the others. -/
theorem forall_split_cons_iff {C : List (ℕ × ℕ) → ℕ → ℕ → List (ℕ × ℕ) → Prop} {p dataStart : ℕ}
    {codes : List (ℕ × ℕ)} :
    (∀ mid q ds after, (p, dataStart) :: codes = mid ++ (q, ds) :: after → C mid q ds after) ↔
      C [] p dataStart codes ∧
        ∀ mid q ds after, codes = mid ++ (q, ds) :: after → C ((p, dataStart) :: mid) q ds after := by
  constructor
  · intro h
    refine ⟨h [] p dataStart codes rfl, fun mid q ds after hcodes => ?_⟩
    exact h ((p, dataStart) :: mid) q ds after (by rw [hcodes]; rfl)
  · rintro ⟨hfirst, hrest⟩ mid q ds after h
    cases mid with
    | nil =>
        cases h
        exact hfirst
    | cons code mid =>
        cases h
        exact hrest mid q ds after rfl

/-- **The loop returns the right positions exactly when each IDR unit follows a long enough one**:
the offset is the position of the start code, less what is not in NAL units before it. -/
theorem codesLoop_eq_iff : ∀ (codes before : List (ℕ × ℕ)) (offset : ℕ),
    findStartCodes data = before ++ codes →
    (∀ p dataStart after, codes = (p, dataStart) :: after →
      p = gap seen data + codeBytes before + offset) →
    (codesLoop data codes offset = idrPositions data codes ↔
      ∀ mid p dataStart after, codes = mid ++ (p, dataStart) :: after →
        isIdr (nalAt data dataStart after) = true → LongBefore data (before ++ mid) p) := by
  intro codes
  induction codes with
  | nil =>
      intro before offset _ _
      refine iff_of_true rfl ?_
      intro mid p dataStart after h
      exact absurd h.symm (by simp)
  | cons code codes ih =>
      obtain ⟨p, dataStart⟩ := code
      intro before offset hcodes hoffset
      have hp := hoffset p dataStart codes rfl
      have hchain : Chained data 0 (before ++ (p, dataStart) :: codes) := by
        rw [← hcodes]
        exact chained_findStartCodesF data _ 0
      obtain ⟨j, -, -, -, hlt, hle, hrest⟩ := hchain.append
      -- the start code and the NAL unit between this start code and the next
      have hnext : ∀ q ds after, codes = (q, ds) :: after → q = gap seen data +
          codeBytes (before ++ [(p, dataStart)]) + (offset + (nalAt data dataStart codes).length) := by
        rintro q ds after rfl
        obtain ⟨hq, hqds, hds, -⟩ := hrest
        rw [codeBytes_concat, nalAt, slice, List.length_take, List.length_drop, endOf]
        dsimp only
        omega
      obtain ⟨q, hfound, hq⟩ := startCodeFrom_eq hcodes (show offset ≤ p by omega)
      have htail := ih (before ++ [(p, dataStart)]) _ (by rw [hcodes, List.append_cons]) hnext
      rw [codesLoop, idrPositions, forall_split_cons_iff, hfound, List.append_nil,
        ← all_lt_iff_longBefore hcodes hp, ← hq]
      simp only [List.append_assoc, List.singleton_append] at htail
      rw [← htail]
      by_cases hidr : isIdr (nalAt data dataStart codes) = true
      · rw [if_pos hidr, if_pos hidr]
        simp only [Option.toList_some, List.singleton_append, List.cons.injEq, hidr, true_implies]
      · rw [if_neg hidr, if_neg hidr]
        exact ⟨fun h => ⟨fun hyes => absurd hyes hidr, h⟩, fun h => h.2⟩

end Loop

/-- **`find_keyframes` returns the positions of the IDR NAL units exactly when each of them, other
than the first NAL unit, follows one that is long enough.** -/
theorem keyframeOffsets_iff (data : List UInt8) :
    KeyframeOffsets data (findKeyframes data) ↔ LongEnough data := by
  rw [keyframeOffsets_iff_eq, findKeyframes_eq]
  refine codesLoop_eq_iff (findStartCodes data) [] 0 rfl ?_
  intro p dataStart after hcodes
  -- the first start code is where the gap ends
  have hfirst : endOf data (codesFrom data 0) = 0 + gap seen (data.drop 0) :=
    endOf_codesFrom (Nat.zero_le _)
  have hcodes' : codesFrom data 0 = (p, dataStart) :: after := hcodes
  rw [hcodes', endOf, List.drop_zero] at hfirst
  simp only [codeBytes, List.map_nil, List.sum_nil]
  omega

/-- **Three IDR NAL units of two bytes**: the third is reported at the position of the second. -/
theorem findKeyframes_repeats :
    findKeyframes [0x00, 0x00, 0x01, 0x65, 0x88, 0x00, 0x00, 0x01, 0x65, 0x88, 0x00, 0x00, 0x01, 0x65,
      0x88] = [0, 5, 5] ∧
    ¬ KeyframeOffsets [0x00, 0x00, 0x01, 0x65, 0x88, 0x00, 0x00, 0x01, 0x65, 0x88, 0x00, 0x00, 0x01,
      0x65, 0x88] (findKeyframes [0x00, 0x00, 0x01, 0x65, 0x88, 0x00, 0x00, 0x01, 0x65, 0x88, 0x00,
      0x00, 0x01, 0x65, 0x88]) := by
  have hfound : findKeyframes [0x00, 0x00, 0x01, 0x65, 0x88, 0x00, 0x00, 0x01, 0x65, 0x88, 0x00, 0x00,
      0x01, 0x65, 0x88] = [0, 5, 5] := by decide
  refine ⟨hfound, ?_⟩
  rw [hfound]
  rintro ⟨hpair, -⟩
  exact absurd hpair (by decide)

end H264

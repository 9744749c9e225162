/-
**Taking NAL units out of an RTMP video message.**

`extract_h264_nal_units` in `crates/protocols/src/rtmp/mod.rs` is the other direction of
`build_video_sequence_header` and `build_video_nalus`.  What it is given comes from the peer.  The
lengths of NAL units are checked against the data; the lengths of the SPS and the PPS of a sequence
header are not, and neither is that a message with NAL units has the three bytes of its composition
time.  On such messages an index or a slice is out of range.

Main definitions:

* `Rtmp.extractH264NalUnits`;
* `Rtmp.WellSized` — messages whose sequence header has room for what it declares.

Main results:

* `Rtmp.nalLoop_spec` — the loop over the NAL units takes all of its data but a short tail;
* `Rtmp.extraction_safe_iff` — **when the extraction does not panic**;
* `Rtmp.extract_built` — **what was built is taken out again**.
-/

import MibeeEye.CheckedReads
import MibeeEye.RtmpOutput

set_option relaxedAutoImplicit false
set_option autoImplicit false

namespace Rtmp

open Wire H264 Checked

/-! ### The function -/

/-- The loop over the NAL units, from position `pos` on. -/
@[grind =]
def nalLoop (nalData : List UInt8) : ℕ → ℕ → List (List UInt8) → Run String (List (List UInt8))
  | 0, _, _ => .error .outOfFuel
  | fuel + 1, pos, nalUnits =>
      if pos + 4 ≤ nalData.length then do
        let bytes ← bytesAt nalData pos 4
        let nalLen := ofBe bytes
        if nalData.length < pos + 4 + nalLen then bail "NAL unit extends beyond data"
        else do
          let nal ← range nalData (pos + 4) (pos + 4 + nalLen)
          nalLoop nalData fuel (pos + 4 + nalLen) (nalUnits ++ [nal])
      else return nalUnits

/-- The SPS and the PPS of a sequence header. -/
def sequenceHeaderNals (payload : List UInt8) : Run String (List (List UInt8)) :=
  let len := payload.length
  if payload.length < 11 then bail s!"AVC sequence header too short: {len}"
  else do
    let spsBytes ← bytesAt payload 6 2
    let spsLen := ofBe spsBytes
    let sps ← range payload 8 (8 + spsLen)
    let ppsOffset := 8 + spsLen + 1
    let ppsBytes ← bytesAt payload ppsOffset 2
    let ppsLen := ofBe ppsBytes
    let pps ← range payload (ppsOffset + 2) (ppsOffset + 2 + ppsLen)
    return [sps, pps]

/-- **`extract_h264_nal_units`.** -/
def extractH264NalUnits (data : List UInt8) : Run String (List (List UInt8)) :=
  let len := data.length
  if data.length < 5 then bail s!"RTMP video data too short: {len}"
  else do
    let firstByte ← byteAt data 0
    let codecId := firstByte &&& 0x0F
    if codecId ≠ 7 then bail s!"Unsupported video codec: {codecId}"
    else do
      let avcPacketType ← byteAt data 4
      let payload ← suffixFrom data 5
      if avcPacketType = 0 then sequenceHeaderNals payload
      else if avcPacketType = 1 then do
        let nalData ← suffixFrom data 8
        nalLoop nalData (nalData.length + 1) 0 []
      else if avcPacketType = 2 then return []
      else bail s!"Unknown AVC packet type: {avcPacketType}"

/-! ### The loop -/

/-- **The loop takes all of its data but a short tail**, or finds a length that is too large. -/
theorem nalLoop_spec (nalData : List UInt8) : ∀ (fuel pos : ℕ) (acc : List (List UInt8)),
    pos ≤ nalData.length → nalData.length < pos + fuel →
    (∃ nals tail, nalLoop nalData fuel pos acc = .ok (acc ++ nals) ∧ tail.length < 4 ∧
      nalData.drop pos = avcc nals ++ tail) ∨
    nalLoop nalData fuel pos acc = bail "NAL unit extends beyond data" := by
  intro fuel
  induction fuel with
  | zero =>
      intro pos acc hpos hfuel
      omega
  | succ fuel ih =>
      intro pos acc hpos hfuel
      rw [nalLoop]
      by_cases hfour : pos + 4 ≤ nalData.length
      · rw [if_pos hfour, bytesAt_eq hfour, ok_bind]
        generalize hnalLen : ofBe ((nalData.drop pos).take 4) = nalLen
        dsimp only
        by_cases hlong : nalData.length < pos + 4 + nalLen
        · rw [if_pos hlong]
          exact .inr rfl
        rw [if_neg hlong, range_eq (by omega) (by omega), ok_bind, Nat.add_sub_cancel_left]
        refine (ih (pos + 4 + nalLen) _ (by omega) (by omega)).imp_left ?_
        rintro ⟨nals, tail, hok, htail, hrest⟩
        -- the length and the bytes of this NAL unit stand before the rest
        have hlength : ((nalData.drop (pos + 4)).take nalLen).length = nalLen := by
          rw [List.length_take, List.length_drop]
          omega
        have hbytes : beBytes 4 nalLen = (nalData.drop pos).take 4 := by
          rw [← hnalLen]
          exact beBytes_ofBe (List.length_take_of_le (by rw [List.length_drop]; omega))
        have hhead : nalData.drop pos = beBytes 4 nalLen ++ nalData.drop (pos + 4) := by
          rw [hbytes, ← List.drop_drop, List.take_append_drop]
        have hnal : nalData.drop (pos + 4) =
            (nalData.drop (pos + 4)).take nalLen ++ (avcc nals ++ tail) := by
          rw [← hrest, ← List.drop_drop (i := nalLen), List.take_append_drop]
        refine ⟨(nalData.drop (pos + 4)).take nalLen :: nals, tail, ?_, htail, ?_⟩
        · rw [hok, List.append_assoc]
          rfl
        · rw [hhead, avcc_cons, hlength, List.append_assoc, List.append_assoc, ← hnal]
      · rw [if_neg hfour]
        refine .inl ⟨[], nalData.drop pos, ?_, ?_, rfl⟩
        · rw [List.append_nil]
          rfl
        · rw [List.length_drop]
          omega

/-- The loop over NAL units with their lengths takes exactly them. -/
theorem nalLoop_avcc {nalData : List UInt8} : ∀ (nals : List (List UInt8)) (fuel pos : ℕ)
    (acc : List (List UInt8)), (∀ nal ∈ nals, nal.length ≤ 2 ^ 32 - 1) → pos ≤ nalData.length →
    nalData.length < pos + fuel → nalData.drop pos = avcc nals →
    nalLoop nalData fuel pos acc = .ok (acc ++ nals) := by
  intro nals
  induction nals with
  | nil =>
      intro fuel pos acc _ hpos hfuel hdrop
      obtain ⟨fuel, rfl⟩ : ∃ k, fuel = k + 1 := ⟨fuel - 1, by omega⟩
      have hend : nalData.length - pos = 0 := by
        rw [← List.length_drop, hdrop]
        rfl
      rw [nalLoop, if_neg (by omega), List.append_nil]
      rfl
  | cons nal nals ih =>
      intro fuel pos acc hnals hpos hfuel hdrop
      obtain ⟨fuel, rfl⟩ : ∃ k, fuel = k + 1 := ⟨fuel - 1, by omega⟩
      have hnal := hnals nal (List.mem_cons_self ..)
      have hlen : nalData.length - pos = 4 + nal.length + (avcc nals).length := by
        rw [← List.length_drop, hdrop, length_avcc_cons]
      rw [avcc_cons] at hdrop
      have htake : (nalData.drop pos).take 4 = beBytes 4 nal.length := by
        rw [hdrop, List.append_assoc]
        exact List.take_left' (length_beBytes 4 _)
      have hdrop' : nalData.drop (pos + 4) = nal ++ avcc nals := by
        rw [← List.drop_drop, hdrop, List.append_assoc]
        exact List.drop_left' (length_beBytes 4 _)
      have hrest : nalData.drop (pos + 4 + nal.length) = avcc nals := by
        rw [← List.drop_drop, hdrop', List.drop_left]
      rw [nalLoop, if_pos (by omega), bytesAt_eq (by omega), ok_bind, htake,
        ofBe_beBytes_of_lt (by omega)]
      dsimp only
      rw [if_neg (by omega), range_eq (by omega) (by omega), ok_bind, Nat.add_sub_cancel_left,
        hdrop', List.take_left, ih fuel _ _ (fun n hn => hnals n (List.mem_cons_of_mem _ hn))
        (by omega) (by omega) hrest, List.append_assoc]
      rfl

/-! ### The sequence header -/

/-- The length a sequence header declares for its SPS. -/
def declaredSpsLen (payload : List UInt8) : ℕ := ofBe (slice payload 6 8)

/-- The length it declares for its PPS, after the SPS and one byte. -/
def declaredPpsLen (payload : List UInt8) : ℕ :=
  ofBe (slice payload (8 + declaredSpsLen payload + 1) (8 + declaredSpsLen payload + 1 + 2))

/-- There is room for an SPS and a PPS of the declared lengths. -/
def HasRoom (payload : List UInt8) : Prop :=
  8 + declaredSpsLen payload + 1 + 2 ≤ payload.length ∧
    8 + declaredSpsLen payload + 1 + 2 + declaredPpsLen payload ≤ payload.length

/-- A sequence header with room is read. -/
theorem sequenceHeaderNals_eq {payload : List UInt8} (hmin : 11 ≤ payload.length)
    (hroom : HasRoom payload) :
    sequenceHeaderNals payload = .ok
      [slice payload 8 (8 + declaredSpsLen payload),
       slice payload (8 + declaredSpsLen payload + 1 + 2)
        (8 + declaredSpsLen payload + 1 + 2 + declaredPpsLen payload)] := by
  obtain ⟨hsps, hpps⟩ := hroom
  have hpps' : 8 + declaredSpsLen payload + 1 + 2 + ofBe ((payload.drop
      (8 + declaredSpsLen payload + 1)).take 2) ≤ payload.length := by
    rw [declaredPpsLen, slice, Nat.add_sub_cancel_left] at hpps
    exact hpps
  simp only [sequenceHeaderNals]
  have hspsLen : ofBe ((payload.drop 6).take 2) = declaredSpsLen payload := rfl
  rw [if_neg (by omega), bytesAt_eq (by omega), ok_bind, hspsLen]
  rw [range_eq (by omega) (by omega), ok_bind, bytesAt_eq (by omega), ok_bind,
    range_eq (by omega) hpps', ok_bind]
  simp only [slice, declaredPpsLen, Nat.add_sub_cancel_left]
  rfl

/-- One without room is not: the SPS, the length of the PPS or the PPS is out of range. -/
theorem sequenceHeaderNals_panics {payload : List UInt8} (hmin : 11 ≤ payload.length)
    (hroom : ¬ HasRoom payload) : sequenceHeaderNals payload = panics := by
  simp only [sequenceHeaderNals]
  have hspsLen : ofBe ((payload.drop 6).take 2) = declaredSpsLen payload := rfl
  rw [if_neg (by omega), bytesAt_eq (by omega), ok_bind, hspsLen]
  by_cases hsps : 8 + declaredSpsLen payload ≤ payload.length
  · rw [range_eq (by omega) hsps, ok_bind]
    by_cases hlen : 8 + declaredSpsLen payload + 1 + 2 ≤ payload.length
    · have hpps : payload.length < 8 + declaredSpsLen payload + 1 + 2 + ofBe ((payload.drop
          (8 + declaredSpsLen payload + 1)).take 2) := by
        rw [HasRoom, declaredPpsLen, slice, Nat.add_sub_cancel_left] at hroom
        omega
      rw [bytesAt_eq hlen, ok_bind, range_of_lt hpps, panics_bind]
    · rw [bytesAt_of_lt (by omega) (by omega), panics_bind]
  · rw [range_of_lt (by omega), panics_bind]

/-! ### Which messages are read -/

/-- What is made of a message by its first byte and its packet type. -/
theorem extract_cons (b₀ b₁ b₂ b₃ avcPacketType : UInt8) (payload : List UInt8) :
    extractH264NalUnits (b₀ :: b₁ :: b₂ :: b₃ :: avcPacketType :: payload) =
      if b₀ &&& 0x0F ≠ 7 then
        let codecId := b₀ &&& 0x0F
        bail s!"Unsupported video codec: {codecId}"
      else if avcPacketType = 0 then sequenceHeaderNals payload
      else if avcPacketType = 1 then do
        let nalData ← suffixFrom payload 3
        nalLoop nalData (nalData.length + 1) 0 []
      else if avcPacketType = 2 then return []
      else bail s!"Unknown AVC packet type: {avcPacketType}" := by
  have hsuffix : (suffixFrom (b₀ :: b₁ :: b₂ :: b₃ :: avcPacketType :: payload) 8 :
      Run String (List UInt8)) = suffixFrom payload 3 := by
    by_cases hlen : 3 ≤ payload.length
    · rw [suffixFrom_eq hlen, suffixFrom_eq (by simp only [List.length_cons]; omega)]
      rfl
    · have hpayload : (suffixFrom payload 3 : Run String (List UInt8)) = panics :=
        suffixFrom_of_lt (by omega)
      rw [hpayload]
      exact suffixFrom_of_lt (by simp only [List.length_cons]; omega)
  rw [← hsuffix]
  simp only [extractH264NalUnits]
  rw [if_neg (by simp only [List.length_cons]; omega)]
  rfl

/-- The message declares no more than it has: a sequence header has room for its SPS and its PPS,
and a message with NAL units for its composition time. -/
def WellSized (data : List UInt8) : Prop :=
  5 ≤ data.length → data.getD 0 0 &&& 0x0F = 7 →
    (data.getD 4 0 = 0 → 11 ≤ (data.drop 5).length → HasRoom (data.drop 5)) ∧
    (data.getD 4 0 = 1 → 8 ≤ data.length)

/-- The extraction returns, and what it returns of a message with NAL units are the units of its
body, up to a tail too short for a length. -/
def ExtractionSafe (data : List UInt8) : Prop :=
  (∃ result, extractH264NalUnits data = returned result) ∧
    ∀ nals, data.getD 4 0 = 1 → extractH264NalUnits data = .ok nals →
      ∃ tail, tail.length < 4 ∧ data.drop 8 = avcc nals ++ tail

/-- The body of a message with NAL units. -/
theorem nalLoop_body (body : List UInt8) :
    (∃ nals tail, nalLoop body (body.length + 1) 0 [] = .ok nals ∧ tail.length < 4 ∧
      body = avcc nals ++ tail) ∨
    nalLoop body (body.length + 1) 0 [] = bail "NAL unit extends beyond data" := by
  have h := nalLoop_spec body (body.length + 1) 0 [] (Nat.zero_le _) (by omega)
  simpa only [List.nil_append, List.drop_zero] using h

/-- A message that was read, by its packet type. -/
theorem extraction_safe_cons_iff {b₀ : UInt8} (b₁ b₂ b₃ avcPacketType : UInt8)
    (payload : List UInt8) (hcodec : b₀ &&& 0x0F = 7) :
    ExtractionSafe (b₀ :: b₁ :: b₂ :: b₃ :: avcPacketType :: payload) ↔
      (avcPacketType = 0 → 11 ≤ payload.length → HasRoom payload) ∧
      (avcPacketType = 1 → 3 ≤ payload.length) := by
  rw [ExtractionSafe, extract_cons, if_neg (not_not.2 hcodec)]
  change (_ ∧ ∀ nals, avcPacketType = 1 → _ → ∃ tail, _ ∧ payload.drop 3 = _) ↔ _
  by_cases hzero : avcPacketType = 0
  · have hone : avcPacketType ≠ 1 := by
      rw [hzero]
      decide
    rw [if_pos hzero]
    constructor
    · rintro ⟨⟨result, hresult⟩, -⟩
      refine ⟨fun _ hmin => ?_, fun h => absurd h hone⟩
      by_contra hroom
      rw [sequenceHeaderNals_panics hmin hroom] at hresult
      exact returned_ne_panics result hresult.symm
    · rintro ⟨hroom, -⟩
      refine ⟨?_, fun _ h => absurd h hone⟩
      by_cases hmin : 11 ≤ payload.length
      · exact ⟨.ok _, sequenceHeaderNals_eq hmin (hroom hzero hmin)⟩
      · exact ⟨.error _, if_pos (by omega)⟩
  rw [if_neg hzero]
  by_cases hone : avcPacketType = 1
  · rw [if_pos hone]
    by_cases hthree : 3 ≤ payload.length
    · rw [suffixFrom_eq hthree, ok_bind]
      refine iff_of_true ?_ ⟨fun h => absurd h hzero, fun _ => hthree⟩
      obtain ⟨nals, tail, hok, htail, hbody⟩ | hlong := nalLoop_body (payload.drop 3)
      · rw [hok]
        refine ⟨⟨.ok nals, rfl⟩, ?_⟩
        intro nals' _ hnals
        cases hnals
        exact ⟨tail, htail, hbody⟩
      · rw [hlong]
        refine ⟨⟨.error _, rfl⟩, ?_⟩
        intro nals' _ hnals
        cases hnals
    · rw [suffixFrom_of_lt (by omega), panics_bind]
      refine iff_of_false ?_ (fun h => hthree (h.2 hone))
      rintro ⟨⟨result, hresult⟩, -⟩
      exact returned_ne_panics result hresult.symm
  rw [if_neg hone]
  refine iff_of_true ⟨?_, fun _ h => absurd h hone⟩
    ⟨fun h => absurd h hzero, fun h => absurd h hone⟩
  split
  · exact ⟨.ok [], rfl⟩
  · exact ⟨.error _, rfl⟩

/-- **The extraction does not panic exactly on messages that declare no more than they have.** -/
theorem extraction_safe_iff (data : List UInt8) : ExtractionSafe data ↔ WellSized data := by
  by_cases hlen : data.length < 5
  · refine iff_of_true ⟨⟨.error _, if_pos hlen⟩, ?_⟩ (fun h => by omega)
    intro nals htype
    rw [List.getD_eq_getElem?_getD, List.getElem?_eq_none (by omega)] at htype
    exact absurd htype (by decide)
  rcases data with _ | ⟨b₀, _ | ⟨b₁, _ | ⟨b₂, _ | ⟨b₃, _ | ⟨t, payload⟩⟩⟩⟩⟩
  · exact absurd (by decide) hlen
  · exact absurd (by simp) hlen
  · exact absurd (by simp) hlen
  · exact absurd (by simp) hlen
  · exact absurd (by simp) hlen
  by_cases hcodec : b₀ &&& 0x0F = 7
  · rw [extraction_safe_cons_iff b₁ b₂ b₃ t payload hcodec]
    have hlen' : 8 ≤ (b₀ :: b₁ :: b₂ :: b₃ :: t :: payload).length ↔ 3 ≤ payload.length := by
      simp only [List.length_cons]
      omega
    rw [WellSized, hlen']
    exact ⟨fun h _ _ => h, fun h => h (by simp only [List.length_cons]; omega) hcodec⟩
  · refine iff_of_true ?_ (fun _ h => absurd h hcodec)
    rw [ExtractionSafe, extract_cons, if_pos hcodec]
    refine ⟨⟨.error _, rfl⟩, ?_⟩
    intro nals _ hnals
    cases hnals

/-- A message of six bytes with NAL units, and a sequence header that declares an SPS of 65535
bytes. -/
theorem extraction_panics :
    extractH264NalUnits [0x17, 0x00, 0x00, 0x00, 0x01, 0x00] = panics ∧
      extractH264NalUnits [0x17, 0x00, 0x00, 0x00, 0x00, 0x01, 0x42, 0x80, 0x1E, 0xFF, 0xE1, 0xFF,
        0xFF, 0x00, 0x00, 0x00] = panics ∧
      ¬ ExtractionSafe [0x17, 0x00, 0x00, 0x00, 0x01, 0x00] := by
  refine ⟨by decide, by decide, ?_⟩
  rintro ⟨⟨result, hresult⟩, -⟩
  exact returned_ne_panics result (hresult.symm.trans (by decide))

/-! ### What was built is taken out -/

/-- A sequence header is read by the lengths written in it. -/
theorem sequenceHeaderNals_built {head sps pps : List UInt8} (hhead : head.length = 6)
    (hsps : sps.length ≤ 65535) (hpps : pps.length ≤ 65535) :
    sequenceHeaderNals (head ++ (beBytes 2 sps.length ++ (sps ++ (0x01 ::
      (beBytes 2 pps.length ++ pps))))) = .ok [sps, pps] := by
  generalize hpayload : head ++ (beBytes 2 sps.length ++ (sps ++ (0x01 ::
    (beBytes 2 pps.length ++ pps)))) = payload
  have hlen : payload.length = 11 + sps.length + pps.length := by
    simp only [← hpayload, List.length_append, List.length_cons, length_beBytes, hhead]
    omega
  have hsix : payload.drop 6 = beBytes 2 sps.length ++ (sps ++ (0x01 ::
      (beBytes 2 pps.length ++ pps))) := by
    rw [← hpayload]
    exact List.drop_left' hhead
  have height : payload.drop 8 = sps ++ (0x01 :: (beBytes 2 pps.length ++ pps)) := by
    rw [show 8 = 6 + 2 from rfl, ← List.drop_drop, hsix]
    exact List.drop_left' (length_beBytes 2 _)
  have hafter : payload.drop (8 + sps.length + 1) = beBytes 2 pps.length ++ pps := by
    rw [← List.drop_drop, ← List.drop_drop, height, List.drop_left]
    rfl
  have hlast : payload.drop (8 + sps.length + 1 + 2) = pps := by
    rw [← List.drop_drop, hafter]
    exact List.drop_left' (length_beBytes 2 _)
  have hspsLen : declaredSpsLen payload = sps.length := by
    rw [declaredSpsLen, slice, hsix, List.take_left' (length_beBytes 2 _)]
    exact ofBe_beBytes_of_lt (by omega)
  have hppsLen : declaredPpsLen payload = pps.length := by
    rw [declaredPpsLen, hspsLen, slice, Nat.add_sub_cancel_left, hafter,
      List.take_left' (length_beBytes 2 _)]
    exact ofBe_beBytes_of_lt (by omega)
  have hroom : HasRoom payload := by
    rw [HasRoom, hspsLen, hppsLen]
    omega
  rw [sequenceHeaderNals_eq (by omega) hroom, hspsLen, hppsLen, slice, slice,
    Nat.add_sub_cancel_left, Nat.add_sub_cancel_left, height, hlast, List.take_left,
    List.take_length]

theorem extract_buildVideoSequenceHeader {sps pps : List UInt8} (hsps : sps.length ≤ 65535)
    (hpps : pps.length ≤ 65535) :
    extractH264NalUnits (buildVideoSequenceHeader sps pps) = .ok [sps, pps] := by
  simp only [buildVideoSequenceHeader, List.append_assoc, List.cons_append, List.nil_append]
  rw [extract_cons, if_neg (by decide), if_pos rfl]
  exact @sequenceHeaderNals_built [0x01, _, _, _, 0xFF, 0xE1] sps pps rfl hsps hpps

theorem extract_buildVideoNalus {nals : List (List UInt8)} (isKeyframe : Bool)
    (compositionOffset : ℤ) (hnals : ∀ nal ∈ nals, nal.length ≤ 2 ^ 32 - 1) :
    extractH264NalUnits (buildVideoNalus (avcc nals) isKeyframe compositionOffset) = .ok nals := by
  obtain ⟨b₀, time, hbuilt, hcodec, htime⟩ : ∃ (b₀ : UInt8) (time : List UInt8),
      buildVideoNalus (avcc nals) isKeyframe compositionOffset =
        b₀ :: 0x00 :: 0x00 :: 0x00 :: 0x01 :: (time ++ avcc nals) ∧
      b₀ &&& 0x0F = 7 ∧ time.length = 3 := by
    refine ⟨_, _, rfl, ?_, length_beBytes 3 _⟩
    cases isKeyframe with
    | true => decide
    | false => decide
  have hbody : (time ++ avcc nals).drop 3 = avcc nals := List.drop_left' htime
  have hone : (0x01 : UInt8) ≠ 0 := by decide
  rw [hbuilt, extract_cons, if_neg (not_not.2 hcodec), if_neg hone, if_pos rfl,
    suffixFrom_eq (by rw [List.length_append]; omega), ok_bind, hbody]
  exact nalLoop_avcc nals _ 0 [] hnals (Nat.zero_le _) (by omega) (List.drop_zero)

/-- **What was built is taken out again**: the parameter sets from a sequence header, the NAL units
from a message with them. -/
theorem extract_built :
    (∀ sps pps : List UInt8, sps.length ≤ 65535 → pps.length ≤ 65535 →
      extractH264NalUnits (buildVideoSequenceHeader sps pps) = .ok [sps, pps]) ∧
    ∀ (nals : List (List UInt8)) (isKeyframe : Bool) (compositionOffset : ℤ),
      (∀ nal ∈ nals, nal.length ≤ 2 ^ 32 - 1) →
      extractH264NalUnits (buildVideoNalus (avcc nals) isKeyframe compositionOffset) = .ok nals :=
  ⟨fun _ _ hsps hpps => extract_buildVideoSequenceHeader hsps hpps,
    fun _ isKeyframe compositionOffset hnals =>
      extract_buildVideoNalus isKeyframe compositionOffset hnals⟩

/-- Empty parameter sets, and two NAL units of which one is empty. -/
theorem extract_built_empty :
    extractH264NalUnits (buildVideoSequenceHeader [] []) = .ok [[], []] ∧
      extractH264NalUnits (buildVideoNalus (avcc [[], [0x65]]) true (-1)) = .ok [[], [0x65]] :=
  ⟨extract_built.1 [] [] (by decide) (by decide),
    extract_built.2 [[], [0x65]] true (-1) (by decide)⟩

end Rtmp

/-
**Fragments of a NAL unit.**

`fragment_nal` of `crates/protocols/src/rtp.rs` cuts a NAL unit into FU-A packets, and
`reassemble_fua` puts them together again.  The reassembly decides by the flags in the fragments and
by their positions alone: what it accepts is a first fragment with the start flag, a last one with
the end flag, and between them fragments with neither.  It does not look at the sequence numbers, the
timestamps, the sources or the kind of the payloads, nor at the other flag of the first and the last
fragment.

Main definitions:

* `Rtp.fragmentNal` — the fragments of a NAL unit;
* `Rtp.PassesChecks` — the lengths, types and flags that the reassembly asks for;
* `Rtp.CompleteRun` — the fragments of one NAL unit, none of them missing.

Main results:

* `Rtp.fragmentNal_fragmented` — **a NAL unit is fragmented and put together again**;
* `Rtp.reassembleFua_eq_ok_iff` — what the reassembly accepts, and what it makes of it;
* `Rtp.reassembly_complete_iff` — **where the reassembly accepts complete runs only**.
-/

import MibeeEye.RtpSerialization

set_option relaxedAutoImplicit false
set_option autoImplicit false

namespace Rtp

open Wire RtpPacket

/-! ### Fragmentation -/

/-- `build_fua_indicator`. -/
def buildFuaIndicator (nalRefIdc : UInt8) : UInt8 := ((nalRefIdc &&& 0x03) <<< 5) ||| 28

/-- `build_fua_header`. -/
def buildFuaHeader (start stop : Bool) (nalUnitType : UInt8) : UInt8 :=
  (start.toUInt8 <<< 7) ||| (stop.toUInt8 <<< 6) ||| (nalUnitType &&& 0x1F)

/-- `usize::div_ceil`. -/
def divCeil (a b : ℕ) : ℕ := if 0 < a % b then a / b + 1 else a / b

/-- The packet of one fragment. -/
def fuaPacket (nalRefIdc nalUnitType payloadType : UInt8) (timestamp ssrc : UInt32)
    (isFirst isLast : Bool) (seq : UInt16) (chunk : List UInt8) : RtpPacket where
  flags :=
    { version := rtpVersion, padding := false, extension := false, csrcCount := 0
      marker := isLast, payloadType }
  sequenceNumber := seq
  timestamp := timestamp
  ssrc := ssrc
  csrcList := []
  extensionProfile := none
  extensionData := []
  payload := buildFuaIndicator nalRefIdc :: buildFuaHeader isFirst isLast nalUnitType :: chunk

/-- The loop of `fragment_nal`, with `n` packets to go. -/
def fragmentLoop (build : Bool → Bool → UInt16 → List UInt8 → RtpPacket) (nalData : List UInt8)
    (maxPayload numPackets : ℕ) : ℕ → ℕ → ℕ → UInt16 → List RtpPacket
  | 0, _, _, _ => []
  | n + 1, i, offset, seq =>
      let chunkEnd := min (offset + maxPayload) nalData.length
      build (i == 0) (i == numPackets - 1) seq (slice nalData offset chunkEnd) ::
        fragmentLoop build nalData maxPayload numPackets n (i + 1) chunkEnd (seq + 1)

/-- **`fragment_nal`.** -/
def fragmentNal (nalData : List UInt8) (nalRefIdc nalUnitType payloadType : UInt8)
    (sequenceNumber : UInt16) (timestamp ssrc : UInt32) (mtu : ℕ) :
    Except String (List RtpPacket) :=
  if nalData = [] then .error "Cannot fragment empty NAL data"
  else if mtu ≤ rtpHeaderSize + 2 then
    .error s!"MTU too small for FU-A: {mtu} (need > {rtpHeaderSize + 2})"
  else
    let maxPayload := mtu - rtpHeaderSize - 2
    if maxPayload = 0 then
      .error s!"MTU too small: header overhead ({rtpHeaderSize + 2}) exceeds MTU ({mtu})"
    else
      let numPackets := divCeil nalData.length maxPayload
      .ok (fragmentLoop (fuaPacket nalRefIdc nalUnitType payloadType timestamp ssrc) nalData
        maxPayload numPackets numPackets 0 0 sequenceNumber)

/-! ### The loop -/

/-- The number of pieces is enough for all of the data, and none of them is empty. -/
theorem divCeil_spec {a b : ℕ} (ha : 0 < a) (hb : 0 < b) :
    0 < divCeil a b ∧ (divCeil a b - 1) * b < a ∧ a ≤ divCeil a b * b := by
  have hdiv := Nat.div_add_mod a b
  have hmod := Nat.mod_lt a hb
  rw [Nat.mul_comm] at hdiv
  unfold divCeil
  split
  · rw [Nat.add_sub_cancel, Nat.add_mul, Nat.one_mul]
    exact ⟨Nat.succ_pos _, by omega, by omega⟩
  · have hpos : 0 < a / b := by
      rcases Nat.eq_zero_or_pos (a / b) with h | h
      · rw [h] at hdiv
        omega
      · exact h
    have hsub : (a / b - 1) * b + b = a / b * b := by
      rw [← Nat.succ_mul, Nat.succ_eq_add_one, Nat.sub_add_cancel hpos]
    exact ⟨hpos, by omega, by omega⟩

/-- Piece `i` of some data, of length `c` but for the last. -/
def piece (data : List UInt8) (c i : ℕ) : List UInt8 :=
  slice data (min (i * c) data.length) (min ((i + 1) * c) data.length)

/-- **The loop makes one packet of each piece.** -/
theorem fragmentLoop_eq (build : Bool → Bool → UInt16 → List UInt8 → RtpPacket)
    (data : List UInt8) (c numPackets n : ℕ) : ∀ (i : ℕ) (seq : UInt16),
    fragmentLoop build data c numPackets n i (min (i * c) data.length) seq =
      (List.range n).map fun k =>
        build (i + k == 0) (i + k == numPackets - 1) (seq + UInt16.ofNat k) (piece data c (i + k)) := by
  induction n with
  | zero =>
      intro i seq
      rfl
  | succ n ih =>
      intro i seq
      have hend : min (min (i * c) data.length + c) data.length =
          min ((i + 1) * c) data.length := by
        rw [Nat.add_mul, Nat.one_mul]
        omega
      rw [fragmentLoop, hend, ih, List.range_succ_eq_map, List.map_cons, List.map_map]
      refine congrArg₂ List.cons ?_ (List.map_congr_left fun k _ => ?_)
      · have hzero : seq + UInt16.ofNat 0 = seq := UInt16.add_zero seq
        rw [Nat.add_zero, hzero]
        rfl
      · have hseq : seq + 1 + UInt16.ofNat k = seq + UInt16.ofNat (k + 1) := by
          rw [UInt16.ofNat_add, UInt16.add_assoc, UInt16.add_comm 1]
          rfl
        have hi : i + 1 + k = i + (k + 1) := by omega
        rw [Function.comp_apply, hseq, hi]

theorem piece_eq (data : List UInt8) (c i : ℕ) : piece data c i = (data.drop (i * c)).take c := by
  rw [piece, slice, Nat.add_mul, Nat.one_mul]
  rcases Nat.le_total data.length (i * c) with hle | hle
  · rw [Nat.min_eq_right hle, List.drop_length, List.drop_eq_nil_of_le hle, List.take_nil,
      List.take_nil]
  · rw [Nat.min_eq_left hle]
    rcases Nat.le_total data.length (i * c + c) with hend | hend
    · have hlen : (data.drop (i * c)).length ≤ c := by
        rw [List.length_drop]
        omega
      rw [Nat.min_eq_right hend, List.take_of_length_le hlen, ← List.length_drop, List.take_length]
    · rw [Nat.min_eq_left hend, Nat.add_sub_cancel_left]

theorem length_piece_le (data : List UInt8) (c i : ℕ) : (piece data c i).length ≤ c := by
  rw [piece_eq, List.length_take]
  exact Nat.min_le_left _ _

/-- The pieces are the data. -/
theorem flatMap_piece (data : List UInt8) (c n : ℕ) :
    (List.range n).flatMap (piece data c) = data.take (n * c) := by
  induction n with
  | zero => simp
  | succ n ih =>
      rw [List.range_succ, List.flatMap_append, ih, List.flatMap_singleton, piece_eq, Nat.add_mul,
        Nat.one_mul, List.take_add]

/-! ### What the reassembly accepts -/

/-- The indicator and the header of a fragment, if there is room for them. -/
@[grind =] def fuaBytes (pld : List UInt8) : Option (FuAIndicator × FuAHeader) :=
  match pld with
  | indicatorByte :: headerByte :: _ =>
      some (parseFuaIndicator indicatorByte, parseFuaHeader headerByte)
  | _ => none

/-- What is asked of fragment `i` of `n`. -/
def FragmentPasses (indicator : FuAIndicator) (header : FuAHeader) (n i : ℕ) (pld : List UInt8) :
    Prop :=
  ∃ fi fh, fuaBytes pld = some (fi, fh) ∧ fi.nalRefIdc = indicator.nalRefIdc ∧
    fh.nalUnitType = header.nalUnitType ∧ (i = 0 → fh.start = true) ∧
    (i = n - 1 → fh.stop = true) ∧ (0 < i → i < n - 1 → fh.start = false ∧ fh.stop = false)

theorem checkFragment_eq_ok_iff {indicator : FuAIndicator} {header : FuAHeader} {n i : ℕ}
    {pld : List UInt8} :
    checkFragment indicator header n i pld = .ok () ↔ FragmentPasses indicator header n i pld := by
  unfold checkFragment FragmentPasses fuaBytes
  split
  · rename_i indicatorByte headerByte _
    dsimp only
    generalize parseFuaIndicator indicatorByte = fi
    generalize parseFuaHeader headerByte = fh
    split_ifs with hnri htype hstart hstop hmiddle
    · simp [hnri]
    · simp [htype]
    · simp [hstart.1, hstart.2]
    · simp [hstop.1, hstop.2]
    · simp only [Option.some.injEq, Prod.mk.injEq, false_iff, not_exists]
      rintro fi' fh' ⟨⟨rfl, rfl⟩, -, -, -, -, h⟩
      obtain ⟨h1, h2⟩ := h hmiddle.1 hmiddle.2.1
      simp [h1, h2] at hmiddle
    · simp only [true_iff]
      refine ⟨fi, fh, rfl, not_not.mp hnri, not_not.mp htype, fun hi => ?_, fun hi => ?_,
        fun hpos hlt => ?_⟩
      · simpa [hi] using hstart
      · simpa [hi] using hstop
      · simpa [hpos, hlt] using hmiddle
  · simp

/-- The loop over the fragments stops at the first that does not pass. -/
theorem checkFragments_eq_ok_iff {indicator : FuAIndicator} {header : FuAHeader} {n : ℕ} :
    ∀ {plds : List (List UInt8)} {i : ℕ},
      checkFragments indicator header n i plds = .ok () ↔
        ∀ (k : ℕ) (h : k < plds.length), FragmentPasses indicator header n (i + k) plds[k] := by
  intro plds
  induction plds with
  | nil => simp [checkFragments]
  | cons pld plds ih =>
      intro i
      rw [checkFragments]
      constructor
      · intro h k hk
        split at h
        · cases h
        · rename_i hfirst
          cases k with
          | zero => exact checkFragment_eq_ok_iff.mp hfirst
          | succ k =>
              have hrest := ih.mp h k (by simpa using hk)
              rwa [Nat.add_right_comm] at hrest
      · intro h
        have hfirst := checkFragment_eq_ok_iff.mpr (h 0 (Nat.succ_pos _))
        rw [Nat.add_zero, List.getElem_cons_zero] at hfirst
        rw [hfirst]
        refine ih.mpr fun k hk => ?_
        have hrest := h (k + 1) (Nat.succ_lt_succ hk)
        rwa [List.getElem_cons_succ, Nat.add_comm k, ← Nat.add_assoc] at hrest

/-- The loop over all payloads. -/
theorem checkPayloads_eq_ok_iff {indicator : FuAIndicator} {header : FuAHeader}
    {packets : List RtpPacket} :
    checkFragments indicator header packets.length 0 (packets.map (·.payload)) = .ok () ↔
      ∀ (i : ℕ) (h : i < packets.length),
        FragmentPasses indicator header packets.length i packets[i].payload := by
  simp only [checkFragments_eq_ok_iff, List.length_map, List.getElem_map, Nat.zero_add]

/-- **The checks of the reassembly**: every fragment has an indicator and a header, which agree in
the importance and the type with those of the first; the first has the start flag, the last the end
flag, and the others neither. -/
structure RunPasses (packets : List RtpPacket) (indicator : FuAIndicator) (header : FuAHeader) :
    Prop where
  first : (packets.head?.bind fun p => fuaBytes p.payload) = some (indicator, header)
  forbidden : indicator.forbiddenZeroBit = 0
  fragments : ∀ (i : ℕ) (h : i < packets.length),
    FragmentPasses indicator header packets.length i packets[i].payload

/-- Some fragments pass the checks. -/
def PassesChecks (packets : List RtpPacket) : Prop :=
  ∃ indicator header, RunPasses packets indicator header

/-- The NAL unit that some fragments are put together to. -/
def joined (packets : List RtpPacket) (indicator : FuAIndicator) (header : FuAHeader) : List UInt8 :=
  ((indicator.forbiddenZeroBit <<< 7) ||| (indicator.nalRefIdc <<< 5) ||| header.nalUnitType) ::
    packets.flatMap (·.payload.drop 2)

/-- **What the reassembly accepts, and what it makes of it.** -/
theorem reassembleFua_eq_ok_iff {packets : List RtpPacket} {nal : List UInt8} :
    reassembleFua packets = .ok nal ↔
      ∃ indicator header, RunPasses packets indicator header ∧
        nal = joined packets indicator header := by
  cases packets with
  | nil =>
      refine ⟨fun h => (by cases h), ?_⟩
      rintro ⟨indicator, header, ⟨hfirst, -, -⟩, -⟩
      cases hfirst
  | cons first rest =>
      rw [reassembleFua]
      split
      · rename_i indicatorByte headerByte chunk hpayload
        have hbytes : fuaBytes first.payload =
            some (parseFuaIndicator indicatorByte, parseFuaHeader headerByte) := by
          rw [hpayload]
          rfl
        dsimp only
        constructor
        · intro h
          split_ifs at h with hforbidden hstart
          split at h
          · cases h
          · rename_i hok
            refine ⟨_, _, ⟨hbytes, not_not.mp hforbidden, checkPayloads_eq_ok_iff.mp hok⟩, ?_⟩
            exact (Except.ok.inj h).symm
        · rintro ⟨indicator, header, ⟨hfirst, hforbidden, hfragments⟩, rfl⟩
          have hfirst' : fuaBytes first.payload = some (indicator, header) := hfirst
          obtain ⟨hi, hh⟩ := Prod.mk.inj (Option.some.inj (hbytes.symm.trans hfirst'))
          rw [hi, hh]
          -- the first fragment has the start flag
          have hstart : header.start = true := by
            obtain ⟨fi, fh, hfi, -, -, hflag, -⟩ := hfragments 0 (Nat.succ_pos _)
            obtain ⟨-, rfl⟩ := Prod.mk.inj (Option.some.inj (hfirst'.symm.trans hfi))
            exact hflag rfl
          rw [if_neg (not_not.mpr hforbidden), if_neg (by simp [hstart]),
            checkPayloads_eq_ok_iff.mpr hfragments]
          rfl
      · rename_i hshort
        refine ⟨fun h => (by cases h), ?_⟩
        rintro ⟨indicator, header, ⟨hfirst, -, -⟩, -⟩
        have hfirst' : fuaBytes first.payload = some (indicator, header) := hfirst
        unfold fuaBytes at hfirst'
        split at hfirst'
        · rename_i hpayload
          exact absurd hpayload (hshort _ _ _)
        · cases hfirst'

theorem exists_reassembleFua_iff {packets : List RtpPacket} :
    (∃ nal, reassembleFua packets = .ok nal) ↔ PassesChecks packets := by
  simp only [reassembleFua_eq_ok_iff, PassesChecks]
  constructor
  · rintro ⟨nal, indicator, header, h, -⟩
    exact ⟨indicator, header, h⟩
  · rintro ⟨indicator, header, h⟩
    exact ⟨_, indicator, header, h, rfl⟩

/-! ### A NAL unit, fragmented and put together again -/

theorem parseFuaIndicator_build (nalRefIdc : UInt8) :
    parseFuaIndicator (buildFuaIndicator nalRefIdc) = ⟨0, nalRefIdc &&& 0x03⟩ := by
  revert nalRefIdc
  refine forall_byte ?_
  decide +kernel

theorem parseFuaHeader_build (start stop : Bool) (nalUnitType : UInt8) :
    parseFuaHeader (buildFuaHeader start stop nalUnitType) =
      ⟨start, stop, 0, nalUnitType &&& 0x1F⟩ := by
  have hbyte : buildFuaHeader start stop nalUnitType =
      fuHeaderByte start stop (nalUnitType &&& 0x1F) := by
    cases start <;> cases stop <;> rfl
  rw [hbyte, parseFuaHeader_flags]

section Fragments

variable (nalRefIdc nalUnitType payloadType : UInt8) (timestamp ssrc : UInt32)

theorem fuaBytes_fuaPacket (isFirst isLast : Bool) (seq : UInt16) (chunk : List UInt8) :
    fuaBytes (fuaPacket nalRefIdc nalUnitType payloadType timestamp ssrc isFirst isLast seq
      chunk).payload =
      some (⟨0, nalRefIdc &&& 0x03⟩, ⟨isFirst, isLast, 0, nalUnitType &&& 0x1F⟩) := by
  rw [fuaPacket, fuaBytes, parseFuaIndicator_build, parseFuaHeader_build]

theorem length_toBytes_fuaPacket (isFirst isLast : Bool) (seq : UInt16) (chunk : List UInt8) :
    (fuaPacket nalRefIdc nalUnitType payloadType timestamp ssrc isFirst isLast seq
      chunk).toBytes.length = rtpHeaderSize + 2 + chunk.length := by
  simp only [toBytes, front, fuaPacket, List.length_append, length_header, length_csrcBytes,
    List.length_cons, List.length_nil]
  have hnone : (extensionBytes false none []).length = 0 := rfl
  rw [hnone]
  omega

/-- Fragment `i` of `n`. -/
def fragmentAt (nalRefIdc nalUnitType payloadType : UInt8) (timestamp ssrc : UInt32)
    (seq : UInt16) (data : List UInt8) (c n i : ℕ) : RtpPacket :=
  fuaPacket nalRefIdc nalUnitType payloadType timestamp ssrc (i == 0) (i == n - 1)
    (seq + UInt16.ofNat i) (piece data c i)

/-- **`fragment_nal` makes one fragment of each piece.** -/
theorem fragmentNal_eq {data : List UInt8} {mtu : ℕ} (seq : UInt16) (hdata : data ≠ [])
    (hmtu : 14 < mtu) :
    let n := divCeil data.length (mtu - 14)
    fragmentNal data nalRefIdc nalUnitType payloadType seq timestamp ssrc mtu =
      .ok ((List.range n).map
        (fragmentAt nalRefIdc nalUnitType payloadType timestamp ssrc seq data (mtu - 14) n)) := by
  dsimp only
  have hsmall : ¬ mtu ≤ rtpHeaderSize + 2 := not_le.mpr hmtu
  have hmax : mtu - rtpHeaderSize - 2 = mtu - 14 := Nat.sub_sub mtu 12 2
  rw [fragmentNal, if_neg hdata, if_neg hsmall]
  dsimp only
  rw [hmax, if_neg (by omega)]
  have hloop := fragmentLoop_eq (fuaPacket nalRefIdc nalUnitType payloadType timestamp ssrc) data
    (mtu - 14) (divCeil data.length (mtu - 14)) (divCeil data.length (mtu - 14)) 0 seq
  rw [Nat.zero_mul, Nat.zero_min] at hloop
  rw [hloop]
  refine congrArg Except.ok (List.map_congr_left fun i _ => ?_)
  rw [Nat.zero_add, fragmentAt]

/-- Fragments pass the checks of the reassembly. -/
theorem runPasses_fragments (seq : UInt16) (data : List UInt8) (c : ℕ) {n : ℕ} (hn : 0 < n) :
    RunPasses ((List.range n).map
      (fragmentAt nalRefIdc nalUnitType payloadType timestamp ssrc seq data c n))
      ⟨0, nalRefIdc &&& 0x03⟩ ⟨true, 0 == n - 1, 0, nalUnitType &&& 0x1F⟩ := by
  refine ⟨?_, rfl, fun i hi => ?_⟩
  · obtain ⟨n, rfl⟩ := Nat.exists_eq_succ_of_ne_zero hn.ne'
    rw [List.range_succ_eq_map, List.map_cons, List.head?_cons, Option.bind_some]
    exact fuaBytes_fuaPacket _ _ payloadType timestamp ssrc _ _ _ _
  · rw [List.getElem_map, List.getElem_range, List.length_map, List.length_range]
    refine ⟨_, _, fuaBytes_fuaPacket _ _ payloadType timestamp ssrc _ _ _ _, rfl, rfl,
      fun h => beq_iff_eq.mpr h, fun h => beq_iff_eq.mpr h, fun hpos hlt => ⟨?_, ?_⟩⟩
    · exact beq_eq_false_iff_ne.mpr hpos.ne'
    · exact beq_eq_false_iff_ne.mpr hlt.ne

end Fragments

/-- **The fragments of a NAL unit**: none is longer than the path allows, their sequence numbers
count on from the first, they have one timestamp, the marker and the end flag are on the last and the
start flag is on the first, and they are put together to the NAL unit with its header. -/
structure Fragmented (nalData : List UInt8) (nalRefIdc nalUnitType : UInt8) (seq : UInt16)
    (timestamp : UInt32) (mtu : ℕ) (packets : List RtpPacket) : Prop where
  size : ∀ p ∈ packets, p.toBytes.length ≤ mtu
  sequence : ∀ (i : ℕ) (h : i < packets.length),
    packets[i].sequenceNumber = seq + UInt16.ofNat i
  timestamp : ∀ p ∈ packets, p.timestamp = timestamp
  marker : ∀ (i : ℕ) (h : i < packets.length),
    packets[i].flags.marker = true ↔ i = packets.length - 1
  flags : ∀ (i : ℕ) (h : i < packets.length), ∃ fi fh,
    fuaBytes packets[i].payload = some (fi, fh) ∧ (fh.start = true ↔ i = 0) ∧
      (fh.stop = true ↔ i = packets.length - 1)
  reassembled : reassembleFua packets = .ok (((nalRefIdc <<< 5) ||| nalUnitType) :: nalData)

/-- **A NAL unit is fragmented, and put together again**, whatever its length and the MTU. -/
theorem fragmentNal_fragmented (nalData : List UInt8)
    (nalRefIdc nalUnitType payloadType : UInt8) (seq : UInt16) (timestamp ssrc : UInt32) (mtu : ℕ)
    (hdata : nalData ≠ []) (hnri : nalRefIdc < 4) (htype : nalUnitType < 32) (hmtu : 14 < mtu) :
    ∃ packets,
      fragmentNal nalData nalRefIdc nalUnitType payloadType seq timestamp ssrc mtu = .ok packets ∧
        Fragmented nalData nalRefIdc nalUnitType seq timestamp mtu packets := by
  have hlen : 0 < nalData.length := List.length_pos_iff.mpr hdata
  obtain ⟨hn, -, henough⟩ := @divCeil_spec nalData.length (mtu - 14) hlen (by omega)
  refine ⟨_, fragmentNal_eq _ _ payloadType timestamp ssrc seq hdata hmtu, ?_, ?_, ?_, ?_, ?_, ?_⟩
  · intro p hp
    obtain ⟨i, -, rfl⟩ := List.mem_map.mp hp
    have hpiece := length_piece_le nalData (mtu - 14) i
    rw [fragmentAt, length_toBytes_fuaPacket, rtpHeaderSize]
    omega
  · intro i hi
    rw [List.getElem_map, List.getElem_range]
    rfl
  · intro p hp
    obtain ⟨i, -, rfl⟩ := List.mem_map.mp hp
    rfl
  · intro i hi
    rw [List.getElem_map, List.getElem_range, List.length_map, List.length_range]
    exact beq_iff_eq
  · intro i hi
    rw [List.getElem_map, List.getElem_range, List.length_map, List.length_range]
    exact ⟨_, _, fuaBytes_fuaPacket _ _ payloadType timestamp ssrc _ _ _ _, beq_iff_eq,
      beq_iff_eq⟩
  · refine reassembleFua_eq_ok_iff.mpr
      ⟨_, _, runPasses_fragments nalRefIdc nalUnitType payloadType timestamp ssrc seq nalData _ hn, ?_⟩
    rw [joined, List.flatMap_map]
    have hpieces : (List.range (divCeil nalData.length (mtu - 14))).flatMap
        (fun i => (fragmentAt nalRefIdc nalUnitType payloadType timestamp ssrc seq nalData (mtu - 14)
          (divCeil nalData.length (mtu - 14)) i).payload.drop 2) = nalData := by
      rw [show (fun i => (fragmentAt nalRefIdc nalUnitType payloadType timestamp ssrc seq nalData
        (mtu - 14) (divCeil nalData.length (mtu - 14)) i).payload.drop 2) =
        piece nalData (mtu - 14) from rfl, flatMap_piece, List.take_of_length_le henough]
    rw [hpieces]
    have hzero : (0 : UInt8) <<< 7 = 0 := rfl
    have hnriBits : nalRefIdc &&& 0x03 = nalRefIdc :=
      and_mask_eq (k := 2) rfl (UInt8.lt_iff_toNat_lt.mp hnri)
    have htypeBits : nalUnitType &&& 0x1F = nalUnitType :=
      and_mask_eq (k := 5) rfl (UInt8.lt_iff_toNat_lt.mp htype)
    rw [hzero, UInt8.zero_or, hnriBits, htypeBits]

/-- Two fragments of one byte each, and the sequence number wraps round between them. -/
theorem fragmentNal_fragmented_two :
    ∃ packets, fragmentNal [0x11, 0x22] 3 5 96 0xFFFF 90000 7 15 = .ok packets ∧
      Fragmented [0x11, 0x22] 3 5 0xFFFF 90000 15 packets :=
  fragmentNal_fragmented [0x11, 0x22] 3 5 96 0xFFFF 90000 7 15 (by decide) (by decide) (by decide)
    (by decide)

/-! ### Complete runs -/

/-- Fragments of one source and one time, of the kind FU-A, numbered without a gap. -/
structure Together (packets : List RtpPacket) : Prop where
  kind : ∀ p ∈ packets, isFua p.payload = true
  timestamp : ∀ p ∈ packets, ∀ q ∈ packets, p.timestamp = q.timestamp
  ssrc : ∀ p ∈ packets, ∀ q ∈ packets, p.ssrc = q.ssrc
  sequence : packets.IsChain fun p q => q.sequenceNumber = p.sequenceNumber + 1

/-- **The fragments of one NAL unit, none of them missing**: the start flag is on the first and the
end flag on the last only. -/
structure CompleteRun (packets : List RtpPacket) : Prop where
  together : Together packets
  flags : ∀ (i : ℕ) (h : i < packets.length), ∃ fi fh,
    fuaBytes packets[i].payload = some (fi, fh) ∧ (fh.start = true ↔ i = 0) ∧
      (fh.stop = true ↔ i = packets.length - 1)

/-- Of two or more fragments, the first is without the end flag and the last without the start
flag. -/
def EdgesClear (packets : List RtpPacket) : Prop :=
  packets.length ≠ 1 → ∀ (i : ℕ) (h : i < packets.length) (fi : FuAIndicator) (fh : FuAHeader),
    fuaBytes packets[i].payload = some (fi, fh) →
      (i = 0 → fh.stop = false) ∧ (i = packets.length - 1 → fh.start = false)

/-- What the checks leave open about a complete run. -/
theorem completeRun_iff {packets : List RtpPacket} (h : PassesChecks packets) :
    CompleteRun packets ↔ Together packets ∧ EdgesClear packets := by
  obtain ⟨indicator, header, hpasses⟩ := h
  constructor
  · refine fun hrun => ⟨hrun.together, fun hone i hi fi fh hbytes => ?_⟩
    obtain ⟨fi', fh', hbytes', hstart, hstop⟩ := hrun.flags i hi
    obtain ⟨-, rfl⟩ := Prod.mk.inj (Option.some.inj (hbytes'.symm.trans hbytes))
    refine ⟨fun hzero => ?_, fun hlast => ?_⟩
    · exact Bool.eq_false_iff.mpr fun htrue => absurd (hstop.mp htrue) (by omega)
    · exact Bool.eq_false_iff.mpr fun htrue => absurd (hstart.mp htrue) (by omega)
  · rintro ⟨htogether, hedges⟩
    refine ⟨htogether, fun i hi => ?_⟩
    obtain ⟨fi, fh, hbytes, -, -, hstart, hstop, hmiddle⟩ := hpasses.fragments i hi
    refine ⟨fi, fh, hbytes, ⟨fun htrue => ?_, hstart⟩, ⟨fun htrue => ?_, hstop⟩⟩
    · -- not the last of several, and not in the middle
      by_contra hne
      rcases Nat.lt_or_ge i (packets.length - 1) with hlt | hge
      · exact absurd htrue (by simp [(hmiddle (by omega) hlt).1])
      · exact absurd htrue (by simp [(hedges (by omega) i hi fi fh hbytes).2 (by omega)])
    · by_contra hne
      rcases Nat.eq_zero_or_pos i with hzero | hpos
      · exact absurd htrue (by simp [(hedges (by omega) i hi fi fh hbytes).1 hzero])
      · exact absurd htrue (by simp [(hmiddle hpos (by omega)).2])

/-! ### Fragments taken away, repeated and exchanged -/

section Drawn

variable {first last : RtpPacket} {middle qs : List RtpPacket} {indicator : FuAIndicator}
  {nalUnitType : UInt8}

/-- The flags of a fragment say which one it is. -/
theorem drawn_cases
    (hfirst : fuaBytes first.payload = some (indicator, ⟨true, false, 0, nalUnitType⟩))
    (hmiddle : ∀ m ∈ middle,
      fuaBytes m.payload = some (indicator, ⟨false, false, 0, nalUnitType⟩))
    (hlast : fuaBytes last.payload = some (indicator, ⟨false, true, 0, nalUnitType⟩))
    {q : RtpPacket} (hq : q ∈ first :: (middle ++ [last])) {fi : FuAIndicator} {fh : FuAHeader}
    (hbytes : fuaBytes q.payload = some (fi, fh)) :
    (fh.start = true → q = first ∧ fh.stop = false) ∧ (fh.stop = true → q = last) ∧
      (fh.start = false → fh.stop = false → q ∈ middle) := by
  rcases List.mem_cons.mp hq with rfl | hq
  · rw [hfirst] at hbytes
    cases hbytes
    exact ⟨fun _ => ⟨rfl, rfl⟩, fun h => (by cases h), fun h => (by cases h)⟩
  rcases List.mem_append.mp hq with hq | hq
  · rw [hmiddle q hq] at hbytes
    cases hbytes
    exact ⟨fun h => (by cases h), fun h => (by cases h), fun _ _ => hq⟩
  · obtain rfl := List.mem_singleton.mp hq
    rw [hlast] at hbytes
    cases hbytes
    exact ⟨fun h => (by cases h), fun _ => rfl, fun _ h => (by cases h)⟩

/-- **Fragments of a NAL unit in any number and order** pass the checks if the first stands at the
start, the last at the end, and neither between them. -/
theorem passesChecks_drawn_iff
    (hfirst : fuaBytes first.payload = some (indicator, ⟨true, false, 0, nalUnitType⟩))
    (hmiddle : ∀ m ∈ middle,
      fuaBytes m.payload = some (indicator, ⟨false, false, 0, nalUnitType⟩))
    (hlast : fuaBytes last.payload = some (indicator, ⟨false, true, 0, nalUnitType⟩))
    (hforbidden : indicator.forbiddenZeroBit = 0)
    (hqs : ∀ q ∈ qs, q ∈ first :: (middle ++ [last])) :
    PassesChecks qs ↔ ∃ ms, qs = first :: (ms ++ [last]) ∧ ∀ m ∈ ms, m ∈ middle := by
  constructor
  · rintro ⟨indicator', header', hpasses⟩
    obtain ⟨a, rest, rfl⟩ : ∃ a rest, qs = a :: rest := by
      cases qs with
      | nil => cases hpasses.first
      | cons a rest => exact ⟨a, rest, rfl⟩
    obtain ⟨fi, fh, hbytes, -, -, hstart, hstop, -⟩ := hpasses.fragments 0 (Nat.succ_pos _)
    obtain ⟨rfl, hnostop⟩ :=
      (drawn_cases hfirst hmiddle hlast (hqs a List.mem_cons_self) hbytes).1 (hstart rfl)
    rcases List.eq_nil_or_concat' rest with rfl | ⟨ms, z, rfl⟩
    · -- a single fragment would have the end flag, too
      rw [hstop rfl] at hnostop
      cases hnostop
    have hlen : (a :: (ms ++ [z])).length = ms.length + 2 := by simp
    refine ⟨ms, ?_, fun m hm => ?_⟩
    · have hbound : ms.length + 1 < (a :: (ms ++ [z])).length := by omega
      obtain ⟨fi, fh, hbytes, -, -, -, hstop, -⟩ := hpasses.fragments (ms.length + 1) hbound
      have hz : (a :: (ms ++ [z]))[ms.length + 1] = z := by simp
      rw [hz] at hbytes
      have hdrawn := drawn_cases hfirst hmiddle hlast (hqs z (by simp)) hbytes
      rw [hdrawn.2.1 (hstop (by omega))]
    · obtain ⟨k, hk, rfl⟩ := List.getElem_of_mem hm
      have hbound : k + 1 < (a :: (ms ++ [z])).length := by omega
      obtain ⟨fi, fh, hbytes, -, -, -, -, hclear⟩ := hpasses.fragments (k + 1) hbound
      have hkm : (a :: (ms ++ [z]))[k + 1] = ms[k] := by
        rw [List.getElem_cons_succ, List.getElem_append_left hk]
      rw [hkm] at hbytes
      have hdrawn := drawn_cases hfirst hmiddle hlast (hqs ms[k] (by simp)) hbytes
      obtain ⟨hs, he⟩ := hclear (by omega) (by omega)
      exact hdrawn.2.2 hs he
  · rintro ⟨ms, rfl, hms⟩
    have hlen : (first :: (ms ++ [last])).length = ms.length + 2 := by simp
    refine ⟨indicator, ⟨true, false, 0, nalUnitType⟩, hfirst, hforbidden, fun i hi => ?_⟩
    rw [hlen]
    rcases Nat.eq_zero_or_pos i with rfl | hpos
    · exact ⟨_, _, hfirst, rfl, rfl, fun _ => rfl, fun h => by omega, fun h => by omega⟩
    obtain ⟨k, rfl⟩ := Nat.exists_eq_succ_of_ne_zero hpos.ne'
    rw [List.getElem_cons_succ]
    rcases Nat.lt_or_ge k ms.length with hk | hk
    · rw [List.getElem_append_left hk]
      exact ⟨_, _, hmiddle _ (hms _ (List.getElem_mem hk)), rfl, rfl, fun h => by omega,
        fun h => by omega, fun _ _ => ⟨rfl, rfl⟩⟩
    · obtain rfl : k = ms.length := by omega
      rw [List.getElem_concat_length rfl]
      exact ⟨_, _, hlast, rfl, rfl, fun h => by omega, fun _ => rfl, fun _ h => by omega⟩

end Drawn

/-- The indicator and the header of each fragment of a NAL unit. -/
theorem fuaBytes_of_fragmentNal {nalData : List UInt8} {nalRefIdc nalUnitType payloadType : UInt8}
    {seq : UInt16} {timestamp ssrc : UInt32} {mtu : ℕ} {packets : List RtpPacket}
    (h : fragmentNal nalData nalRefIdc nalUnitType payloadType seq timestamp ssrc mtu = .ok packets)
    (k : ℕ) (hk : k < packets.length) :
    fuaBytes packets[k].payload = some (⟨0, nalRefIdc &&& 0x03⟩,
      ⟨k == 0, k == packets.length - 1, 0, nalUnitType &&& 0x1F⟩) := by
  have hdata : nalData ≠ [] := by
    rintro rfl
    cases h
  have hmtu : 14 < mtu := by
    by_contra hsmall
    have hle : mtu ≤ rtpHeaderSize + 2 := not_lt.mp hsmall
    rw [fragmentNal, if_neg hdata, if_pos hle] at h
    cases h
  rw [fragmentNal_eq _ _ payloadType timestamp ssrc seq hdata hmtu] at h
  cases h
  rw [List.getElem_map, List.getElem_range, List.length_map, List.length_range]
  exact fuaBytes_fuaPacket _ _ payloadType timestamp ssrc _ _ _ _

/-- What is not accepted is refused. -/
theorem exists_error_iff {packets : List RtpPacket} :
    (∃ e, reassembleFua packets = .error e) ↔ ¬ PassesChecks packets := by
  rw [← exists_reassembleFua_iff]
  cases reassembleFua packets with
  | error e => simp
  | ok nal => simp

/-- **Where the reassembly accepts complete runs only.**  A list of packets that passes the checks is
a complete run if its packets belong together and the flags at its ends are clear; and a list made of
the two or more fragments of a NAL unit, other than these themselves, is refused if it does not begin
with the first of them, end with the last, and have only others between them. -/
theorem reassembly_complete_iff (packets : List RtpPacket) (nalData : List UInt8)
    (nalRefIdc nalUnitType payloadType : UInt8) (seq : UInt16) (timestamp ssrc : UInt32) (mtu : ℕ)
    (first last : RtpPacket) (middle qs : List RtpPacket) :
    (((∃ nal, reassembleFua packets = .ok nal) → CompleteRun packets) ↔
      (PassesChecks packets → Together packets ∧ EdgesClear packets)) ∧
    (fragmentNal nalData nalRefIdc nalUnitType payloadType seq timestamp ssrc mtu =
        .ok (first :: (middle ++ [last])) →
      (∀ q ∈ qs, q ∈ first :: (middle ++ [last])) →
        ((qs ≠ first :: (middle ++ [last]) → ∃ e, reassembleFua qs = .error e) ↔
          qs = first :: (middle ++ [last]) ∨
            ¬ ∃ ms, qs = first :: (ms ++ [last]) ∧ ∀ m ∈ ms, m ∈ middle)) := by
  constructor
  · rw [exists_reassembleFua_iff]
    exact forall_congr' fun h => completeRun_iff h
  · intro h hqs
    have hbytes := fuaBytes_of_fragmentNal h
    have hlen : (first :: (middle ++ [last])).length = middle.length + 2 := by simp
    have hfirst : fuaBytes first.payload =
        some (⟨0, nalRefIdc &&& 0x03⟩, ⟨true, false, 0, nalUnitType &&& 0x1F⟩) := by
      have hzero := hbytes 0 (Nat.succ_pos _)
      rw [hlen] at hzero
      exact hzero
    have hmiddle : ∀ m ∈ middle, fuaBytes m.payload =
        some (⟨0, nalRefIdc &&& 0x03⟩, ⟨false, false, 0, nalUnitType &&& 0x1F⟩) := by
      intro m hm
      obtain ⟨k, hk, rfl⟩ := List.getElem_of_mem hm
      have hkm := hbytes (k + 1) (by omega)
      have hlast : (k + 1 == middle.length + 2 - 1) = false := beq_eq_false_iff_ne.mpr (by omega)
      rw [List.getElem_cons_succ, List.getElem_append_left hk, hlen, hlast] at hkm
      exact hkm
    have hlast : fuaBytes last.payload =
        some (⟨0, nalRefIdc &&& 0x03⟩, ⟨false, true, 0, nalUnitType &&& 0x1F⟩) := by
      have hend := hbytes (middle.length + 1) (by omega)
      have hflag : (middle.length + 1 == middle.length + 2 - 1) = true := beq_iff_eq.mpr rfl
      rw [List.getElem_cons_succ, List.getElem_concat_length rfl, hlen, hflag] at hend
      exact hend
    rw [exists_error_iff, passesChecks_drawn_iff hfirst hmiddle hlast rfl hqs]
    tauto

/-- Fragment `i` of four of one byte each. -/
def oneOfFour (i : ℕ) : RtpPacket :=
  fragmentAt 3 5 96 90000 7 0 [0x11, 0x22, 0x33, 0x44] 1 4 i

/-- All four. -/
def fourFragments : List RtpPacket := [oneOfFour 0, oneOfFour 1, oneOfFour 2, oneOfFour 3]

theorem fragmentNal_four :
    fragmentNal [0x11, 0x22, 0x33, 0x44] 3 5 96 0 90000 7 15 = .ok fourFragments := by
  decide

theorem reassembly_complete_iff_four :
    (((∃ nal, reassembleFua fourFragments = .ok nal) → CompleteRun fourFragments) ↔
      (PassesChecks fourFragments → Together fourFragments ∧ EdgesClear fourFragments)) ∧
    (([oneOfFour 0, oneOfFour 2, oneOfFour 3] ≠ fourFragments →
        ∃ e, reassembleFua [oneOfFour 0, oneOfFour 2, oneOfFour 3] = .error e) ↔
      [oneOfFour 0, oneOfFour 2, oneOfFour 3] = fourFragments ∨
        ¬ ∃ ms, [oneOfFour 0, oneOfFour 2, oneOfFour 3] = oneOfFour 0 :: (ms ++ [oneOfFour 3]) ∧
          ∀ m ∈ ms, m ∈ [oneOfFour 1, oneOfFour 2]) :=
  have hboth := reassembly_complete_iff fourFragments [0x11, 0x22, 0x33, 0x44] 3 5 96 0 90000 7 15
    (oneOfFour 0) (oneOfFour 3) [oneOfFour 1, oneOfFour 2] [oneOfFour 0, oneOfFour 2, oneOfFour 3]
  ⟨hboth.1, hboth.2 fragmentNal_four (by simp)⟩

/-- The second of four fragments is lost, and nobody notices. -/
theorem lostFragment_accepted :
    fragmentNal [0x11, 0x22, 0x33, 0x44] 3 5 96 0 90000 7 15 = .ok fourFragments ∧
      reassembleFua (fourFragments.eraseIdx 1) = .ok [0x65, 0x11, 0x33, 0x44] ∧
      ¬ CompleteRun (fourFragments.eraseIdx 1) := by
  refine ⟨fragmentNal_four, by decide, fun h => ?_⟩
  have hchain := h.together.sequence
  revert hchain
  decide

end Rtp

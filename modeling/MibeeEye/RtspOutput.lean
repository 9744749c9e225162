/-
**The RTSP output: frames become RTP packets.**

`RtspOutput` in `crates/streaming/src/output/rtsp.rs`.  A video frame is one NAL unit; it is sent
as one packet, or in fragments if it is long.  The timestamp of the packets does not come from the
frame: it is a counter that advances by 3000 ticks of 90 kHz after each slice.  Parameter sets are
kept, and sent again before every slice that is not part of a keyframe.

Main definitions:

* `RtspServer.buildRtpPackets` — the packets of a NAL unit;
* `RtspServer.RtspOutput`, with `start`, `sendFrame` and `stop`;
* `RtspServer.rtpTimestampOf` — the timestamp that a packet carries.

Main results:

* `RtspServer.rtpTimestampOf_of_mem_buildRtpPackets` — all packets of a NAL unit carry one timestamp;
* `RtspServer.RtspOutput.sendFrame_spec` — **the packets of a frame carry the counter**, which only
  a slice advances.
-/

import MibeeEye.ListCut
import MibeeEye.RtmpOutput

set_option relaxedAutoImplicit false
set_option autoImplicit false

namespace RtspServer

open Wire Rtmp

/-! ### Packets -/

/-- `RTP_PT_H264`. -/
def rtpPtH264 : UInt8 := 96

/-- `RTP_MAX_PAYLOAD`. -/
def rtpMaxPayload : ℕ := 1400

/-- A packet: the header of twelve bytes, and the payload. -/
def rtpPacket (marker : Bool) (seq : UInt16) (timestamp ssrc : UInt32) (payload : List UInt8) :
    List UInt8 :=
  [0x80, (if marker then 0x80 else 0) ||| rtpPtH264] ++ beBytes 2 seq.toNat ++
    beBytes 4 timestamp.toNat ++ beBytes 4 ssrc.toNat ++ payload

/-- The loop over the fragments of a NAL unit, with the sequence number after it. -/
@[grind =]
def buildFragments (fuIndicator nalType : UInt8) (marker : Bool) (timestamp ssrc : UInt32) :
    Bool → UInt16 → List (List UInt8) → List (List UInt8) × UInt16
  | _, seq, [] => ([], seq)
  | isFirst, seq, chunk :: chunks =>
      let isLast := chunks.isEmpty
      let fuHeader := (if isFirst then 0x80 else 0) ||| (if isLast then 0x40 else 0) ||| nalType
      let rest := buildFragments fuIndicator nalType marker timestamp ssrc false (seq + 1) chunks
      (rtpPacket (isLast && marker) seq timestamp ssrc (fuIndicator :: fuHeader :: chunk) :: rest.1,
        rest.2)

/-- `build_rtp_packets`, with the sequence number after it. -/
def buildRtpPackets (nalData : List UInt8) (seq : UInt16) (timestamp ssrc : UInt32) :
    List (List UInt8) × UInt16 :=
  match nalData with
  | [] => ([], seq)
  | nalHeader :: body =>
      let nalType := nalHeader &&& 0x1F
      let nri := nalHeader &&& 0x60
      let marker := nalType == 5 || nalType == 1
      if nalData.length ≤ rtpMaxPayload then
        ([rtpPacket marker seq timestamp ssrc nalData], seq + 1)
      else
        buildFragments (28 ||| nri) nalType marker timestamp ssrc true seq
          (cut (rtpMaxPayload - 2) body)

/-- The timestamp that a packet carries. -/
def rtpTimestampOf (packet : List UInt8) : ℕ := ofBe (slice packet 4 8)

theorem rtpTimestampOf_rtpPacket (marker : Bool) (seq : UInt16) (timestamp ssrc : UInt32)
    (payload : List UInt8) :
    rtpTimestampOf (rtpPacket marker seq timestamp ssrc payload) = timestamp.toNat := by
  have hslice : slice (rtpPacket marker seq timestamp ssrc payload) 4 8 =
      beBytes 4 timestamp.toNat := by
    rw [slice, rtpPacket, List.append_assoc, List.append_assoc,
      List.drop_left' (by simp), List.take_left' (by simp)]
  rw [rtpTimestampOf, hslice]
  exact ofBe_beBytes_of_lt timestamp.toNat_lt

theorem rtpTimestampOf_of_mem_buildFragments {fuIndicator nalType : UInt8} {marker : Bool}
    {timestamp ssrc : UInt32} {chunks : List (List UInt8)} :
    ∀ {isFirst : Bool} {seq : UInt16},
      ∀ p ∈ (buildFragments fuIndicator nalType marker timestamp ssrc isFirst seq chunks).1,
        rtpTimestampOf p = timestamp.toNat := by
  induction chunks with
  | nil =>
      intro isFirst seq p hp
      cases hp
  | cons chunk chunks ih =>
      intro isFirst seq p hp
      rcases List.mem_cons.1 hp with rfl | hp
      · exact rtpTimestampOf_rtpPacket _ _ _ _ _
      · exact ih p hp

/-- **All packets of a NAL unit carry one timestamp.** -/
theorem rtpTimestampOf_of_mem_buildRtpPackets {nalData : List UInt8} {seq : UInt16}
    {timestamp ssrc : UInt32} {p : List UInt8}
    (h : p ∈ (buildRtpPackets nalData seq timestamp ssrc).1) :
    rtpTimestampOf p = timestamp.toNat := by
  cases nalData with
  | nil => cases h
  | cons nalHeader body =>
      rw [buildRtpPackets] at h
      split at h
      · rw [List.mem_singleton.1 h]
        exact rtpTimestampOf_rtpPacket _ _ _ _ _
      · exact rtpTimestampOf_of_mem_buildFragments p h

/-! ### The output -/

/-- `RtspOutput`; of the channels it holds only whether they are there. -/
structure RtspOutput where
  streamPath : String
  sdpBody : String
  ssrc : UInt32
  hasFrameTx : Bool
  started : Bool := false
  rtpSeq : UInt16 := 0
  rtpTimestamp : UInt32 := 0
  cachedSps : Option (List UInt8) := none
  cachedPps : Option (List UInt8) := none
  hasSpsPpsTx : Bool := false

namespace RtspOutput

/-- `RtspOutput::with_channel`. -/
def withChannel (streamPath sdpBody : String) (ssrc : UInt32) : RtspOutput :=
  { streamPath, sdpBody, ssrc, hasFrameTx := true }

/-- `RtspOutput::start`. -/
def start (o : RtspOutput) : Except String RtspOutput :=
  if o.streamPath = "" then .error "RtspOutput stream path must not be empty"
  else if o.hasFrameTx then .ok { o with started := true }
  else .error "RtspOutput has no channel -- use with_channel() or register a live stream"

/-- `RtspOutput::stop`. -/
def stop (o : RtspOutput) : RtspOutput := { o with hasFrameTx := false, started := false }

/-- What `send_frame` puts into its channels. -/
structure Pushed where
  /-- The packets of the parameter sets that are sent again. -/
  parameterSets : List (List UInt8) := []
  /-- The packets of the frame. -/
  packets : List (List UInt8) := []
  /-- The parameter sets, when both are known for the first time. -/
  spsPps : Option (List UInt8 × List UInt8) := none

/-- The type of a NAL unit, 0 if it is empty. -/
def nalTypeOf (data : List UInt8) : UInt8 := (H264.nalType data).getD 0

/-- The parameter sets after a NAL unit, and what is told the stream manager. -/
def cacheParameterSets (o : RtspOutput) (data : List UInt8) :
    RtspOutput × Option (List UInt8 × List UInt8) :=
  let o' :=
    if nalTypeOf data = 7 then { o with cachedSps := some data }
    else if nalTypeOf data = 8 then { o with cachedPps := some data }
    else o
  if (nalTypeOf data = 7 ∨ nalTypeOf data = 8) ∧ o.hasSpsPpsTx then
    match o'.cachedSps, o'.cachedPps with
    | some sps, some pps => ({ o' with hasSpsPpsTx := false }, some (sps, pps))
    | _, _ => (o', none)
  else (o', none)

/-- The packets of an optional parameter set. -/
def parameterSetPackets (nal : Option (List UInt8)) (seq : UInt16) (timestamp ssrc : UInt32) :
    List (List UInt8) × UInt16 :=
  match nal with
  | some nal => buildRtpPackets nal seq timestamp ssrc
  | none => ([], seq)

/-- What `send_frame` does with a NAL unit after the parameter sets have been looked at. -/
def pushNal (o : RtspOutput) (data : List UInt8) (spsPps : Option (List UInt8 × List UInt8)) :
    RtspOutput × Pushed :=
  let ts := o.rtpTimestamp
  -- a client that joins between two keyframes needs the parameter sets to decode a slice
  let sps := if nalTypeOf data = 1 then o.cachedSps else none
  let pps := if nalTypeOf data = 1 then o.cachedPps else none
  let spsPackets := parameterSetPackets sps o.rtpSeq ts o.ssrc
  let ppsPackets := parameterSetPackets pps spsPackets.2 ts o.ssrc
  let packets := buildRtpPackets data ppsPackets.2 ts o.ssrc
  ({ o with
      rtpSeq := packets.2
      rtpTimestamp := if nalTypeOf data = 1 ∨ nalTypeOf data = 5 then ts + 3000 else ts },
    { parameterSets := spsPackets.1 ++ ppsPackets.1
      packets := packets.1
      spsPps := spsPps })

/-- `RtspOutput::send_frame`. -/
def sendFrame (o : RtspOutput) : MediaFrame → Except String (RtspOutput × Pushed)
  | .video _ data _ =>
      if o.started then
        if o.hasFrameTx then
          let r := o.cacheParameterSets data
          .ok (r.1.pushNal data r.2)
        else .error "RtspOutput has no channel -- call with_channel()"
      else .error "RtspOutput not started"
  | .audio _ _ => .ok (o, {})

/-- A frame that is a slice. -/
def isSliceFrame : MediaFrame → Bool
  | .video _ data _ => nalTypeOf data == 1 || nalTypeOf data == 5
  | .audio _ _ => false

theorem cacheParameterSets_rtpTimestamp (o : RtspOutput) (data : List UInt8) :
    (o.cacheParameterSets data).1.rtpTimestamp = o.rtpTimestamp := by
  unfold cacheParameterSets
  dsimp only
  split
  · split <;> split <;> (try split) <;> rfl
  · split
    · rfl
    · split <;> rfl

theorem pushNal_spec (o : RtspOutput) (data : List UInt8)
    (spsPps : Option (List UInt8 × List UInt8)) :
    (∀ p ∈ (o.pushNal data spsPps).2.packets, rtpTimestampOf p = o.rtpTimestamp.toNat) ∧
      (o.pushNal data spsPps).1.rtpTimestamp = o.rtpTimestamp +
        if nalTypeOf data = 1 ∨ nalTypeOf data = 5 then 3000 else 0 := by
  refine ⟨fun p hp => rtpTimestampOf_of_mem_buildRtpPackets hp, ?_⟩
  change (if nalTypeOf data = 1 ∨ nalTypeOf data = 5 then o.rtpTimestamp + 3000
    else o.rtpTimestamp) = _
  split
  · rfl
  · exact (UInt32.add_zero _).symm

/-- **The packets of a frame carry the counter, which only a slice advances.** -/
theorem sendFrame_spec {o o' : RtspOutput} {frame : MediaFrame} {out : Pushed}
    (h : o.sendFrame frame = .ok (o', out)) :
    (∀ p ∈ out.packets, rtpTimestampOf p = o.rtpTimestamp.toNat) ∧
      o'.rtpTimestamp = o.rtpTimestamp + if isSliceFrame frame then 3000 else 0 := by
  cases frame with
  | audio data timestamp =>
      cases h
      refine ⟨?_, by simp [isSliceFrame]⟩
      intro p hp
      cases hp
  | video keyframe data timestamp =>
      rw [sendFrame] at h
      split at h
      · split at h
        · have hpush := pushNal_spec (o.cacheParameterSets data).1 data (o.cacheParameterSets data).2
          rw [Except.ok.inj h, cacheParameterSets_rtpTimestamp] at hpush
          simpa [isSliceFrame] using hpush
        · cases h
      · cases h

end RtspOutput

end RtspServer

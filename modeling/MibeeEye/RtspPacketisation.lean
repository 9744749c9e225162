/-
**Packetisation is lossless.**

`RtspOutput::send_frame` in `crates/streaming/src/output/rtsp.rs` turns each NAL unit into RTP
packets: one packet, or fragments when it is long.  Before a slice that is not part of a keyframe it
sends the parameter sets again.  A receiver parses the packets with `RtpPacket::parse` and puts
fragments together with `reassemble_fua`, both in `crates/protocols/src/rtp.rs`; a run of fragments
goes from the start flag to the end flag.  It gets back the NAL units that went in.

The output is any that has been started and has only cached parameter sets that were NAL units of
this kind; it stays such an output.

Main definitions:

* `RtspServer.depacketise` — the receiver;
* `RtspServer.RtspOutput.Streaming` — an output between `start` and `stop`;
* `RtspServer.RtspOutput.sendFrames` — the packets of a sequence of frames;
* `RtspServer.nalsSent` — the NAL units that the receiver is to get.

Main results:

* `RtspServer.packetised_buildRtpPackets` — the packets of one NAL unit;
* `RtspServer.RtspOutput.sendFrame_packetised` — the packets of one frame;
* `RtspServer.RtspOutput.sendFrames_lossless` — **the packets of any sequence of frames**.
-/

import MibeeEye.RtpPacket
import MibeeEye.RtspOutput

set_option relaxedAutoImplicit false
set_option autoImplicit false

namespace RtspServer

open Wire Rtmp Rtp

/-! ### The receiver -/

/-- The end flag of a fragment. -/
def endsRun (payload : List UInt8) : Bool := (parseFuaHeader (payload.getD 1 0)).stop

/-- The receiver with the fragments of an unfinished run. -/
@[grind =] def depacketiseFrom : List RtpPacket → List RtpPacket → Except String (List (List UInt8))
  | pending, [] => if pending.isEmpty then .ok [] else .error "fragments without an end"
  | pending, p :: packets =>
      if isFua p.payload then
        if endsRun p.payload then
          match reassembleFua (pending ++ [p]) with
          | .error e => .error e
          | .ok nal => (depacketiseFrom [] packets).map (nal :: ·)
        else depacketiseFrom (pending ++ [p]) packets
      else if isSingleNal p.payload ∧ pending = [] then
        (depacketiseFrom [] packets).map (p.payload :: ·)
      else .error "unexpected packet"

/-- **The NAL units in a sequence of packets** (RFC 6184): single NAL unit packets as they are, each
run of fragments through `reassemble_fua`. -/
def depacketise (packets : List RtpPacket) : Except String (List (List UInt8)) :=
  depacketiseFrom [] packets

/-! ### What is sent -/

/-- A NAL unit with the forbidden bit clear and a type from 1 to 23. -/
def SingleNal (nal : List UInt8) : Prop :=
  ∃ nalHeader body, nal = nalHeader :: body ∧ nalHeader &&& 0x80 = 0 ∧
    1 ≤ nalHeader &&& 0x1F ∧ nalHeader &&& 0x1F ≤ 23

/-- A video frame that holds one such NAL unit. -/
def SingleNalFrame : MediaFrame → Prop
  | .video _ data _ => SingleNal data
  | .audio _ _ => False

/-- An output between `start` and `stop` that has cached NAL units of this kind only. -/
structure RtspOutput.Streaming (o : RtspOutput) : Prop where
  started : o.started = true
  channel : o.hasFrameTx = true
  sps : ∀ nal ∈ o.cachedSps, SingleNal nal
  pps : ∀ nal ∈ o.cachedPps, SingleNal nal

/-- The packets that an output broadcasts for a sequence of frames, in order. -/
def RtspOutput.sendFrames :
    RtspOutput → List MediaFrame → Except String (RtspOutput × List (List UInt8))
  | o, [] => .ok (o, [])
  | o, frame :: frames =>
      match o.sendFrame frame with
      | .error e => .error e
      | .ok (o', pushed) =>
          (o'.sendFrames frames).map fun r => (r.1, pushed.parameterSets ++ pushed.packets ++ r.2)

/-- The latest SPS after a NAL unit. -/
def latestSps (sps : Option (List UInt8)) (nal : List UInt8) : Option (List UInt8) :=
  if RtspOutput.nalTypeOf nal = 7 then some nal else sps

/-- The latest PPS after a NAL unit. -/
def latestPps (pps : Option (List UInt8)) (nal : List UInt8) : Option (List UInt8) :=
  if RtspOutput.nalTypeOf nal = 8 then some nal else pps

/-- The NAL units sent for one: before a slice of type 1 the latest parameter sets. -/
def nalsFor (sps pps : Option (List UInt8)) (nal : List UInt8) : List (List UInt8) :=
  (if RtspOutput.nalTypeOf nal = 1 then sps.toList ++ pps.toList else []) ++ [nal]

/-- **The NAL units sent for a sequence of frames**, from the parameter sets known before. -/
def nalsSent : Option (List UInt8) → Option (List UInt8) → List MediaFrame → List (List UInt8)
  | _, _, [] => []
  | sps, pps, .video _ nal _ :: frames =>
      nalsFor (latestSps sps nal) (latestPps pps nal) nal ++
        nalsSent (latestSps sps nal) (latestPps pps nal) frames
  | sps, pps, .audio _ _ :: frames => nalsSent sps pps frames

/-- The `n` sequence numbers from `seq` on, modulo `2 ^ 16`. -/
def consecutive (seq : UInt16) : ℕ → List UInt16
  | 0 => []
  | n + 1 => seq :: consecutive (seq + 1) n

/-- **The packets of a sequence of NAL units**: `groups` are the packets of each, as the receiver
parses them. -/
structure Packetised (ssrc : UInt32) (seq : UInt16) (bytes : List (List UInt8))
    (groups : List (List RtpPacket)) (nals : List (List UInt8)) : Prop where
  parses : bytes.map RtpPacket.parse = groups.flatten.map .ok
  source : ∀ p ∈ groups.flatten, p.flags.version = 2 ∧ p.ssrc = ssrc
  size : ∀ b ∈ bytes, b.length ≤ 1412
  sequence : groups.flatten.map (·.sequenceNumber) = consecutive seq groups.flatten.length
  carries : List.Forall₂
    (fun group nal => (∀ rest, depacketise (group ++ rest) = (depacketise rest).map (nal :: ·)) ∧
      group.map (·.flags.marker) =
        List.replicate (group.length - 1) false ++ [H264.isSlice nal]) groups nals

/-! ### Putting packets one after another -/

theorem consecutive_add (seq : UInt16) (m n : ℕ) :
    consecutive seq (m + n) = consecutive seq m ++ consecutive (seq + UInt16.ofNat m) n := by
  induction m generalizing seq with
  | zero =>
      rw [Nat.zero_add, consecutive, List.nil_append]
      simp
  | succ m ih =>
      rw [Nat.succ_add, consecutive, consecutive, ih, List.cons_append]
      have hadd : seq + 1 + UInt16.ofNat m = seq + UInt16.ofNat (m + 1) := by
        rw [UInt16.add_assoc, UInt16.ofNat_add, UInt16.add_comm 1]
        rfl
      rw [hadd]

namespace Packetised

variable {ssrc : UInt32} {seq : UInt16} {bytes bytes' : List (List UInt8)}
  {groups groups' : List (List RtpPacket)} {nals nals' : List (List UInt8)}

theorem nil (ssrc : UInt32) (seq : UInt16) : Packetised ssrc seq [] [] [] where
  parses := rfl
  source := by simp
  size := by simp
  sequence := rfl
  carries := .nil

theorem length_flatten (h : Packetised ssrc seq bytes groups nals) :
    groups.flatten.length = bytes.length := by
  have := congrArg List.length h.parses
  rw [List.length_map, List.length_map] at this
  exact this.symm

/-- **Packets one after another**, the sequence number going on. -/
theorem append (h : Packetised ssrc seq bytes groups nals)
    (h' : Packetised ssrc (seq + UInt16.ofNat bytes.length) bytes' groups' nals') :
    Packetised ssrc seq (bytes ++ bytes') (groups ++ groups') (nals ++ nals') where
  parses := by
    rw [List.map_append, h.parses, h'.parses, List.flatten_append, List.map_append]
  source := by
    intro p hp
    rw [List.flatten_append] at hp
    rcases List.mem_append.1 hp with hp | hp
    · exact h.source p hp
    · exact h'.source p hp
  size := by
    intro b hb
    rcases List.mem_append.1 hb with hb | hb
    · exact h.size b hb
    · exact h'.size b hb
  sequence := by
    rw [List.flatten_append, List.map_append, h.sequence, h'.sequence, List.length_append,
      consecutive_add, h.length_flatten]
  carries := List.rel_append h.carries h'.carries

/-- **The receiver gets the NAL units.** -/
theorem depacketise_eq (h : Packetised ssrc seq bytes groups nals) :
    depacketise groups.flatten = .ok nals := by
  obtain ⟨-, -, -, -, hcarries⟩ := h
  induction hcarries with
  | nil => rfl
  | cons hgroup _ ih =>
      rw [List.flatten_cons, hgroup.1, ih]
      rfl

end Packetised

/-- Packets and the sequence number after them. -/
def Continues (ssrc : UInt32) (seq : UInt16) (sent : List (List UInt8) × UInt16)
    (nals : List (List UInt8)) : Prop :=
  (∃ groups, Packetised ssrc seq sent.1 groups nals) ∧ sent.2 = seq + UInt16.ofNat sent.1.length

theorem Continues.append {ssrc : UInt32} {seq : UInt16} {sent sent' : List (List UInt8) × UInt16}
    {nals nals' : List (List UInt8)} (h : Continues ssrc seq sent nals)
    (h' : Continues ssrc sent.2 sent' nals') :
    Continues ssrc seq (sent.1 ++ sent'.1, sent'.2) (nals ++ nals') := by
  obtain ⟨⟨groups, hgroups⟩, hnext⟩ := h
  obtain ⟨⟨groups', hgroups'⟩, hnext'⟩ := h'
  rw [hnext] at hgroups' hnext'
  refine ⟨⟨_, hgroups.append hgroups'⟩, ?_⟩
  simp only [hnext']
  rw [List.length_append, UInt16.ofNat_add, UInt16.add_assoc]

/-! ### The packets of one NAL unit -/

/-- A packet as the receiver parses it. -/
def parsedPacket (marker : Bool) (seq : UInt16) (timestamp ssrc : UInt32) (payload : List UInt8) :
    RtpPacket :=
  .plain ((if marker then 0x80 else 0) ||| rtpPtH264) seq timestamp ssrc payload

theorem parse_rtpPacket (marker : Bool) (seq : UInt16) (timestamp ssrc : UInt32)
    (payload : List UInt8) :
    RtpPacket.parse (rtpPacket marker seq timestamp ssrc payload) =
      .ok (parsedPacket marker seq timestamp ssrc payload) :=
  RtpPacket.parse_plain _ seq timestamp ssrc payload

theorem marker_parsedPacket (marker : Bool) (seq : UInt16) (timestamp ssrc : UInt32)
    (payload : List UInt8) :
    (parsedPacket marker seq timestamp ssrc payload).flags.marker = marker := by
  cases marker <;> rfl

theorem length_rtpPacket (marker : Bool) (seq : UInt16) (timestamp ssrc : UInt32)
    (payload : List UInt8) :
    (rtpPacket marker seq timestamp ssrc payload).length = 12 + payload.length := by
  simp only [rtpPacket, List.length_append, length_beBytes, List.length_cons, List.length_nil]

/-- The fragments of a NAL unit as the receiver parses them. -/
@[grind =]
def parsedFragments (fuIndicator nalType : UInt8) (marker : Bool) (timestamp ssrc : UInt32) :
    Bool → UInt16 → List (List UInt8) → List RtpPacket
  | _, _, [] => []
  | isFirst, seq, chunk :: chunks =>
      parsedPacket (chunks.isEmpty && marker) seq timestamp ssrc
          (fuIndicator :: fuHeaderByte isFirst chunks.isEmpty nalType :: chunk) ::
        parsedFragments fuIndicator nalType marker timestamp ssrc false (seq + 1) chunks

section Fragments

variable (fuIndicator nalType : UInt8) (marker : Bool) (timestamp ssrc : UInt32)

theorem parse_buildFragments : ∀ (isFirst : Bool) (seq : UInt16) (chunks : List (List UInt8)),
    (buildFragments fuIndicator nalType marker timestamp ssrc isFirst seq chunks).1.map
        RtpPacket.parse =
      (parsedFragments fuIndicator nalType marker timestamp ssrc isFirst seq chunks).map .ok := by
  intro isFirst seq chunks
  induction chunks generalizing isFirst seq with
  | nil => rfl
  | cons chunk chunks ih =>
      rw [buildFragments, parsedFragments, List.map_cons, List.map_cons, ih, parse_rtpPacket]
      rfl

theorem payload_parsedFragments : ∀ (isFirst : Bool) (seq : UInt16) (chunks : List (List UInt8)),
    (parsedFragments fuIndicator nalType marker timestamp ssrc isFirst seq chunks).map (·.payload) =
      fragmentPayloads fuIndicator nalType isFirst chunks := by
  intro isFirst seq chunks
  induction chunks generalizing isFirst seq with
  | nil => rfl
  | cons chunk chunks ih =>
      rw [parsedFragments, List.map_cons, ih, fragmentPayloads]
      rfl

theorem length_parsedFragments (isFirst : Bool) (seq : UInt16) (chunks : List (List UInt8)) :
    (parsedFragments fuIndicator nalType marker timestamp ssrc isFirst seq chunks).length =
      chunks.length := by
  have := congrArg List.length
    (payload_parsedFragments fuIndicator nalType marker timestamp ssrc isFirst seq chunks)
  rwa [List.length_map, length_fragmentPayloads] at this

theorem sequence_parsedFragments : ∀ (isFirst : Bool) (seq : UInt16) (chunks : List (List UInt8)),
    (parsedFragments fuIndicator nalType marker timestamp ssrc isFirst seq chunks).map
        (·.sequenceNumber) =
      consecutive seq chunks.length := by
  intro isFirst seq chunks
  induction chunks generalizing isFirst seq with
  | nil => rfl
  | cons chunk chunks ih =>
      rw [parsedFragments, List.map_cons, ih, List.length_cons, consecutive]
      rfl

theorem source_parsedFragments : ∀ (isFirst : Bool) (seq : UInt16) (chunks : List (List UInt8)),
    ∀ p ∈ parsedFragments fuIndicator nalType marker timestamp ssrc isFirst seq chunks,
      p.flags.version = 2 ∧ p.ssrc = ssrc := by
  intro isFirst seq chunks
  induction chunks generalizing isFirst seq with
  | nil =>
      intro p hp
      cases hp
  | cons chunk chunks ih =>
      intro p hp
      rcases List.mem_cons.1 hp with rfl | hp
      · exact ⟨rfl, rfl⟩
      · exact ih false (seq + 1) p hp

/-- Only the last fragment carries the marker. -/
theorem marker_parsedFragments : ∀ (isFirst : Bool) (seq : UInt16) (chunks : List (List UInt8)),
    chunks ≠ [] →
    (parsedFragments fuIndicator nalType marker timestamp ssrc isFirst seq chunks).map
        (·.flags.marker) =
      List.replicate (chunks.length - 1) false ++ [marker] := by
  intro isFirst seq chunks
  induction chunks generalizing isFirst seq with
  | nil =>
      intro hne
      exact absurd rfl hne
  | cons chunk chunks ih =>
      intro _
      rw [parsedFragments, List.map_cons, marker_parsedPacket]
      cases chunks with
      | nil => rfl
      | cons chunk' chunks =>
          rw [ih false (seq + 1) (List.cons_ne_nil _ _)]
          rfl

theorem length_buildFragments_le {n : ℕ} : ∀ (isFirst : Bool) (seq : UInt16)
    (chunks : List (List UInt8)), (∀ chunk ∈ chunks, chunk.length ≤ n) →
    ∀ b ∈ (buildFragments fuIndicator nalType marker timestamp ssrc isFirst seq chunks).1,
      b.length ≤ 14 + n := by
  intro isFirst seq chunks
  induction chunks generalizing isFirst seq with
  | nil =>
      intro _ b hb
      cases hb
  | cons chunk chunks ih =>
      intro hle b hb
      rcases List.mem_cons.1 hb with rfl | hb
      · have := hle chunk List.mem_cons_self
        rw [length_rtpPacket, List.length_cons, List.length_cons]
        omega
      · exact ih false (seq + 1) (fun c hc => hle c (List.mem_cons_of_mem _ hc)) b hb

theorem seq_buildFragments : ∀ (isFirst : Bool) (seq : UInt16) (chunks : List (List UInt8)),
    (buildFragments fuIndicator nalType marker timestamp ssrc isFirst seq chunks).2 =
      seq + UInt16.ofNat chunks.length := by
  intro isFirst seq chunks
  induction chunks generalizing isFirst seq with
  | nil => simp [buildFragments]
  | cons chunk chunks ih =>
      rw [buildFragments, ih, List.length_cons, UInt16.add_assoc, UInt16.ofNat_add,
        UInt16.add_comm 1]
      rfl

end Fragments

/-- The receiver collects a run of fragments and goes on behind it. -/
theorem depacketiseFrom_fragments (nalHeader : UInt8) (marker : Bool) (timestamp ssrc : UInt32)
    (rest : List RtpPacket) : ∀ (chunks : List (List UInt8)) (isFirst : Bool) (seq : UInt16)
    (pending : List RtpPacket) {nal : List UInt8}, chunks ≠ [] →
    reassembleFua (pending ++ parsedFragments (28 ||| (nalHeader &&& 0x60)) (nalHeader &&& 0x1F)
      marker timestamp ssrc isFirst seq chunks) = .ok nal →
    depacketiseFrom pending (parsedFragments (28 ||| (nalHeader &&& 0x60)) (nalHeader &&& 0x1F)
        marker timestamp ssrc isFirst seq chunks ++ rest) =
      (depacketiseFrom [] rest).map (nal :: ·) := by
  intro chunks
  induction chunks with
  | nil =>
      intro isFirst seq pending nal hne
      exact absurd rfl hne
  | cons chunk chunks ih =>
      intro isFirst seq pending nal _ hrun
      rw [parsedFragments] at hrun ⊢
      set p := parsedPacket (chunks.isEmpty && marker) seq timestamp ssrc
        ((28 ||| (nalHeader &&& 0x60)) ::
          fuHeaderByte isFirst chunks.isEmpty (nalHeader &&& 0x1F) :: chunk) with hp
      have hfua : isFua p.payload = true := isFua_indicator nalHeader _
      have hend : endsRun p.payload = chunks.isEmpty := by
        change (parseFuaHeader (fuHeaderByte isFirst chunks.isEmpty (nalHeader &&& 0x1F))).stop = _
        rw [parseFuaHeader_flags]
      rw [List.cons_append, depacketiseFrom, if_pos hfua, hend]
      cases chunks with
      | nil =>
          rw [if_pos List.isEmpty_nil]
          rw [parsedFragments] at hrun ⊢
          rw [hrun]
          rfl
      | cons chunk' chunks =>
          rw [if_neg (by simp)]
          refine ih false (seq + 1) (pending ++ [p]) (List.cons_ne_nil _ _) ?_
          rw [List.append_assoc]
          exact hrun

/-- A single NAL unit is not taken for a fragment. -/
theorem not_isFua {nalHeader : UInt8} {body : List UInt8} (h : nalHeader &&& 0x1F ≤ 23) :
    isFua (nalHeader :: body) = false := by
  rw [isFua, beq_eq_false_iff_ne]
  intro heq
  rw [heq] at h
  exact absurd h (by decide)

/-- **The packets of one NAL unit**: they are parsed, small enough and numbered, and the receiver
gets the NAL unit back. -/
theorem packetised_buildRtpPackets {nal : List UInt8} (h : SingleNal nal) (seq : UInt16)
    (timestamp ssrc : UInt32) :
    Continues ssrc seq (buildRtpPackets nal seq timestamp ssrc) [nal] := by
  obtain ⟨nalHeader, body, rfl, hforbidden, hmin, hmax⟩ := h
  have hmarker : (nalHeader &&& 0x1F == 5 || nalHeader &&& 0x1F == 1) =
      H264.isSlice (nalHeader :: body) := by
    rw [Bool.or_comm]
    rfl
  by_cases hshort : (nalHeader :: body).length ≤ rtpMaxPayload
  · -- one packet
    have hbuild : buildRtpPackets (nalHeader :: body) seq timestamp ssrc =
        ([rtpPacket (H264.isSlice (nalHeader :: body)) seq timestamp ssrc (nalHeader :: body)],
          seq + 1) := by
      simp only [buildRtpPackets, if_pos hshort, hmarker]
    rw [hbuild]
    refine ⟨⟨[[parsedPacket (H264.isSlice (nalHeader :: body)) seq timestamp ssrc
      (nalHeader :: body)]], ?_⟩, rfl⟩
    refine ⟨?_, ?_, ?_, rfl, .cons ⟨fun rest => ?_, ?_⟩ .nil⟩
    · rw [List.map_singleton, parse_rtpPacket]
      rfl
    · intro p hp
      rw [List.mem_singleton.1 hp]
      exact ⟨rfl, rfl⟩
    · intro b hb
      rw [List.mem_singleton.1 hb, length_rtpPacket]
      simp only [rtpMaxPayload] at hshort
      omega
    · have hpayload : (parsedPacket (H264.isSlice (nalHeader :: body)) seq timestamp ssrc
          (nalHeader :: body)).payload = nalHeader :: body := rfl
      have hsingle : isSingleNal (nalHeader :: body) = true := decide_eq_true ⟨hmin, hmax⟩
      rw [depacketise, List.singleton_append, depacketiseFrom, hpayload, not_isFua hmax,
        if_neg (by decide), if_pos ⟨hsingle, rfl⟩]
      rfl
    · rw [List.map_singleton, marker_parsedPacket]
      rfl
  · -- fragments
    have hcut : cut (rtpMaxPayload - 2) body ≠ [] := cut_ne_nil (by decide) body
    have hbuild : buildRtpPackets (nalHeader :: body) seq timestamp ssrc =
        buildFragments (28 ||| (nalHeader &&& 0x60)) (nalHeader &&& 0x1F)
          (H264.isSlice (nalHeader :: body)) timestamp ssrc true seq
          (cut (rtpMaxPayload - 2) body) := by
      simp only [buildRtpPackets, if_neg hshort, hmarker]
    set packets := parsedFragments (28 ||| (nalHeader &&& 0x60)) (nalHeader &&& 0x1F)
      (H264.isSlice (nalHeader :: body)) timestamp ssrc true seq (cut (rtpMaxPayload - 2) body)
      with hpackets
    have hlen : packets.length = (cut (rtpMaxPayload - 2) body).length :=
      length_parsedFragments _ _ _ _ _ _ _ _
    have hparses : (buildRtpPackets (nalHeader :: body) seq timestamp ssrc).1.map RtpPacket.parse =
        packets.map .ok := by
      rw [hbuild]
      exact parse_buildFragments _ _ _ _ _ _ _ _
    have hcount : (buildRtpPackets (nalHeader :: body) seq timestamp ssrc).1.length =
        (cut (rtpMaxPayload - 2) body).length := by
      rw [← hlen, ← List.length_map (f := RtpPacket.parse), hparses, List.length_map]
    have hreassembled : reassembleFua packets = .ok (nalHeader :: body) := by
      rw [reassembleFua_fragments hforbidden hcut (payload_parsedFragments _ _ _ _ _ _ _ _),
        flatten_cut (by decide)]
    refine ⟨⟨[packets], ?_, ?_, ?_, ?_, .cons ⟨fun rest => ?_, ?_⟩ .nil⟩, ?_⟩
    · rw [hparses, List.flatten_singleton]
    · rw [List.flatten_singleton]
      exact source_parsedFragments _ _ _ _ _ _ _ _
    · rw [hbuild]
      exact length_buildFragments_le _ _ _ _ _ _ _ _ (length_of_mem_cut (by decide) body)
    · rw [List.flatten_singleton, hlen]
      exact sequence_parsedFragments _ _ _ _ _ _ _ _
    · exact depacketiseFrom_fragments nalHeader _ timestamp ssrc rest _ true seq [] hcut
        (by rw [List.nil_append]; exact hreassembled)
    · rw [hlen]
      exact marker_parsedFragments _ _ _ _ _ _ _ _ hcut
    · rw [hcount, hbuild, seq_buildFragments]

/-! ### The packets of one frame -/

theorem packetised_parameterSet {nal : Option (List UInt8)} (h : ∀ n ∈ nal, SingleNal n)
    (seq : UInt16) (timestamp ssrc : UInt32) :
    Continues ssrc seq (RtspOutput.parameterSetPackets nal seq timestamp ssrc) nal.toList := by
  cases nal with
  | none =>
      refine ⟨⟨[], Packetised.nil ssrc seq⟩, ?_⟩
      simp [RtspOutput.parameterSetPackets]
  | some n => exact packetised_buildRtpPackets (h n rfl) seq timestamp ssrc

namespace RtspOutput

/-- The parameter sets after a NAL unit, the rest being as before. -/
theorem cacheParameterSets_spec (o : RtspOutput) (data : List UInt8) :
    (o.cacheParameterSets data).1.cachedSps = latestSps o.cachedSps data ∧
      (o.cacheParameterSets data).1.cachedPps = latestPps o.cachedPps data ∧
      (o.cacheParameterSets data).1.ssrc = o.ssrc ∧
      (o.cacheParameterSets data).1.rtpSeq = o.rtpSeq ∧
      (o.cacheParameterSets data).1.started = o.started ∧
      (o.cacheParameterSets data).1.hasFrameTx = o.hasFrameTx := by
  set o' : RtspOutput := if nalTypeOf data = 7 then { o with cachedSps := some data }
    else if nalTypeOf data = 8 then { o with cachedPps := some data } else o with ho'
  have hfields : o'.cachedSps = latestSps o.cachedSps data ∧
      o'.cachedPps = latestPps o.cachedPps data ∧ o'.ssrc = o.ssrc ∧ o'.rtpSeq = o.rtpSeq ∧
      o'.started = o.started ∧ o'.hasFrameTx = o.hasFrameTx := by
    rw [ho', latestSps, latestPps]
    by_cases hsps : nalTypeOf data = 7
    · have hpps : nalTypeOf data ≠ 8 := by
        rw [hsps]
        decide
      rw [if_pos hsps, if_pos hsps, if_neg hpps]
      exact ⟨rfl, rfl, rfl, rfl, rfl, rfl⟩
    · rw [if_neg hsps, if_neg hsps]
      by_cases hpps : nalTypeOf data = 8
      · rw [if_pos hpps, if_pos hpps]
        exact ⟨rfl, rfl, rfl, rfl, rfl, rfl⟩
      · rw [if_neg hpps, if_neg hpps]
        exact ⟨rfl, rfl, rfl, rfl, rfl, rfl⟩
  -- telling the stream manager changes nothing else
  have hresult : (o.cacheParameterSets data).1 = o' ∨
      (o.cacheParameterSets data).1 = { o' with hasSpsPpsTx := false } := by
    unfold cacheParameterSets
    dsimp only
    split
    · split
      · exact .inr rfl
      · exact .inl rfl
    · exact .inl rfl
  rcases hresult with h | h
  · rw [h]
    exact hfields
  · rw [h]
    exact hfields

/-- The packets of a NAL unit and of the parameter sets before it. -/
theorem pushNal_packetised {o : RtspOutput} (hsps : ∀ nal ∈ o.cachedSps, SingleNal nal)
    (hpps : ∀ nal ∈ o.cachedPps, SingleNal nal) {data : List UInt8} (hnal : SingleNal data)
    (spsPps : Option (List UInt8 × List UInt8)) :
    Continues o.ssrc o.rtpSeq
      ((o.pushNal data spsPps).2.parameterSets ++ (o.pushNal data spsPps).2.packets,
        (o.pushNal data spsPps).1.rtpSeq) (nalsFor o.cachedSps o.cachedPps data) := by
  have hsps' : ∀ nal ∈ (if nalTypeOf data = 1 then o.cachedSps else none), SingleNal nal := by
    intro nal hmem
    split at hmem
    · exact hsps nal hmem
    · cases hmem
  have hpps' : ∀ nal ∈ (if nalTypeOf data = 1 then o.cachedPps else none), SingleNal nal := by
    intro nal hmem
    split at hmem
    · exact hpps nal hmem
    · cases hmem
  have hall := ((packetised_parameterSet hsps' o.rtpSeq o.rtpTimestamp o.ssrc).append
    (packetised_parameterSet hpps' _ o.rtpTimestamp o.ssrc)).append
    (packetised_buildRtpPackets hnal _ o.rtpTimestamp o.ssrc)
  have hnals : (if nalTypeOf data = 1 then o.cachedSps else none).toList ++
      (if nalTypeOf data = 1 then o.cachedPps else none).toList ++ [data] =
      nalsFor o.cachedSps o.cachedPps data := by
    rw [nalsFor]
    split <;> rfl
  rw [hnals] at hall
  exact hall

/-- **The packets of one frame**: the parameter sets before a slice of type 1, and the frame. -/
theorem sendFrame_packetised {o : RtspOutput} (h : o.Streaming) {data : List UInt8}
    (hnal : SingleNal data) (keyframe : Bool) (timestamp : ℕ) :
    ∃ o' pushed, o.sendFrame (.video keyframe data timestamp) = .ok (o', pushed) ∧
      Continues o.ssrc o.rtpSeq (pushed.parameterSets ++ pushed.packets, o'.rtpSeq)
        (nalsFor (latestSps o.cachedSps data) (latestPps o.cachedPps data) data) ∧
      o'.ssrc = o.ssrc ∧ o'.cachedSps = latestSps o.cachedSps data ∧
      o'.cachedPps = latestPps o.cachedPps data ∧ o'.Streaming := by
  obtain ⟨hsps, hpps, hssrc, hseq, hstarted, hchannel⟩ := o.cacheParameterSets_spec data
  have hspsNal : ∀ nal ∈ latestSps o.cachedSps data, SingleNal nal := by
    intro nal hmem
    rw [latestSps] at hmem
    split at hmem
    · rw [← Option.some.inj hmem]
      exact hnal
    · exact h.sps nal hmem
  have hppsNal : ∀ nal ∈ latestPps o.cachedPps data, SingleNal nal := by
    intro nal hmem
    rw [latestPps] at hmem
    split at hmem
    · rw [← Option.some.inj hmem]
      exact hnal
    · exact h.pps nal hmem
  have hpush := pushNal_packetised (o := (o.cacheParameterSets data).1) (by rw [hsps]; exact hspsNal)
    (by rw [hpps]; exact hppsNal) hnal (o.cacheParameterSets data).2
  rw [hssrc, hseq, hsps, hpps] at hpush
  refine ⟨_, _, ?_, hpush, hssrc, hsps, hpps, ⟨?_, ?_, ?_, ?_⟩⟩
  · rw [sendFrame, if_pos h.started, if_pos h.channel]
  · exact hstarted.trans h.started
  · exact hchannel.trans h.channel
  · intro nal hmem
    exact hspsNal nal (hsps ▸ hmem)
  · intro nal hmem
    exact hppsNal nal (hpps ▸ hmem)

/-! ### The packets of a run -/

/-- The packets of a run continue the sequence. -/
theorem sendFrames_packetised : ∀ {frames : List MediaFrame} {o : RtspOutput}, o.Streaming →
    (∀ frame ∈ frames, SingleNalFrame frame) →
    ∃ o' bytes, o.sendFrames frames = .ok (o', bytes) ∧ o'.Streaming ∧
      Continues o.ssrc o.rtpSeq (bytes, o'.rtpSeq)
        (nalsSent o.cachedSps o.cachedPps frames) := by
  intro frames
  induction frames with
  | nil =>
      intro o h _
      refine ⟨o, [], rfl, h, ⟨[], Packetised.nil _ _⟩, ?_⟩
      simp
  | cons frame frames ih =>
      intro o h hframes
      have hframe := hframes frame List.mem_cons_self
      cases frame with
      | audio data timestamp => exact hframe.elim
      | video keyframe data timestamp =>
          obtain ⟨o₁, pushed, hsend, hpackets, hssrc, hsps, hpps, hstreaming⟩ :=
            sendFrame_packetised h hframe keyframe timestamp
          obtain ⟨o', bytes, hrest, hstreaming', hmore⟩ :=
            ih hstreaming fun f hf => hframes f (List.mem_cons_of_mem _ hf)
          refine ⟨o', pushed.parameterSets ++ pushed.packets ++ bytes, ?_, hstreaming', ?_⟩
          · rw [sendFrames, hsend]
            simp only [hrest]
            rfl
          · rw [hssrc, hsps, hpps] at hmore
            exact hpackets.append hmore

/-- **Packetisation is lossless**: the packets of any sequence of frames, from any output that is
streaming, are parsed, are at most 1412 bytes long, are numbered one after another, and give the
receiver the NAL units that were sent, each slice of type 1 after the latest parameter sets; the
marker is on the last packet of each slice and nowhere else. -/
theorem sendFrames_lossless {o : RtspOutput} (h : o.Streaming) {frames : List MediaFrame}
    (hframes : ∀ frame ∈ frames, SingleNalFrame frame) :
    ∃ o' bytes packets, o.sendFrames frames = .ok (o', bytes) ∧
      bytes.map RtpPacket.parse = packets.map .ok ∧
      (∀ b ∈ bytes, b.length ≤ 1412) ∧
      packets.map (·.sequenceNumber) = consecutive o.rtpSeq packets.length ∧
      depacketise packets = .ok (nalsSent o.cachedSps o.cachedPps frames) ∧
      ∃ groups, groups.flatten = packets ∧
        List.Forall₂ (fun group nal => depacketise group = .ok [nal] ∧
            group.map (·.flags.marker) =
              List.replicate (group.length - 1) false ++ [H264.isSlice nal])
          groups (nalsSent o.cachedSps o.cachedPps frames) := by
  obtain ⟨o', bytes, hsend, -, ⟨groups, hgroups⟩, -⟩ := sendFrames_packetised h hframes
  refine ⟨o', bytes, groups.flatten, hsend, hgroups.parses, hgroups.size, hgroups.sequence,
    hgroups.depacketise_eq, groups, rfl, ?_⟩
  refine hgroups.carries.imp ?_
  rintro group nal ⟨hgroup, hmarker⟩
  have halone := hgroup []
  rw [List.append_nil] at halone
  exact ⟨halone, hmarker⟩

/-- A new output that has been started is streaming. -/
theorem streaming_of_start {streamPath sdpBody : String} {ssrc : UInt32} {o : RtspOutput}
    (h : (withChannel streamPath sdpBody ssrc).start = .ok o) : o.Streaming := by
  unfold start at h
  split at h
  · cases h
  · split at h
    · rw [← Except.ok.inj h]
      refine ⟨rfl, rfl, ?_, ?_⟩
      · intro nal hmem
        cases hmem
      · intro nal hmem
        cases hmem
    · cases h

/-- An output that has just been started. -/
def fresh (ssrc : UInt32) : RtspOutput :=
  { withChannel "live/cam" "" ssrc with started := true }

/-- Parameter sets, a keyframe slice that needs two fragments, and a slice of one packet. -/
theorem sendFrames_lossless_twoSlices :
    ∃ o' bytes packets, (fresh 7).sendFrames [.video true [0x67, 0x42] 0, .video true [0x68, 0xCE] 0,
        .video true (0x65 :: List.replicate 1400 0xAA) 0, .video false [0x41, 0x9A] 33] =
          .ok (o', bytes) ∧
      bytes.map RtpPacket.parse = packets.map .ok ∧
      (∀ b ∈ bytes, b.length ≤ 1412) ∧
      packets.map (·.sequenceNumber) = consecutive 0 packets.length ∧
      depacketise packets = .ok [[0x67, 0x42], [0x68, 0xCE], 0x65 :: List.replicate 1400 0xAA,
        [0x67, 0x42], [0x68, 0xCE], [0x41, 0x9A]] := by
  have hstart : (withChannel "live/cam" "" 7).start = .ok (fresh 7) := rfl
  have hnals : ∀ frame ∈ [MediaFrame.video true [0x67, 0x42] 0, .video true [0x68, 0xCE] 0,
      .video true (0x65 :: List.replicate 1400 0xAA) 0, .video false [0x41, 0x9A] 33],
      SingleNalFrame frame := by
    intro frame hframe
    simp only [List.mem_cons, List.not_mem_nil, or_false] at hframe
    rcases hframe with rfl | rfl | rfl | rfl
    · exact ⟨_, _, rfl, by decide, by decide, by decide⟩
    · exact ⟨_, _, rfl, by decide, by decide, by decide⟩
    · exact ⟨_, _, rfl, by decide, by decide, by decide⟩
    · exact ⟨_, _, rfl, by decide, by decide, by decide⟩
  obtain ⟨o', bytes, packets, hsend, hparses, hsize, hseq, hnals', -⟩ :=
    sendFrames_lossless (streaming_of_start hstart) hnals
  exact ⟨o', bytes, packets, hsend, hparses, hsize, hseq, hnals'⟩

end RtspOutput

end RtspServer

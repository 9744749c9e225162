/-
**Audio in RTP packets.**

`RtpAudioPacketizer::packetize_pcm` of `crates/protocols/src/audio_codec.rs` encodes samples with G.711
and sends 20 ms of them in a packet.  A packet's timestamp is that of its first sample on a clock of
8 kHz.  It counts samples where it should count frames, saturates, and is added to the first timestamp
without wrapping round.

Main definitions:

* `Audio.pcmToMulaw`, `Audio.pcmToAlaw` — the codes of a sample;
* `Audio.packetizePcm` — the packetizer;
* `Audio.Packetized` — what it has to return;
* `Audio.ClockFits` — the samples whose timestamps are right.

Main results:

* `Audio.pcmToMulaw_ok`, `Audio.pcmToAlaw_ok` — every sample has a code;
* `Audio.packetizePcm_ends` — the packetizer ends;
* `Audio.packetizeLoop_emitted` — the packets that the loop returns where no timestamp overflows;
* `Audio.packetizePcm_packetized_iff` — **which samples are packetized as they should be**.
-/

import MibeeEye.CheckedArithmetic
import MibeeEye.RtpPacket
import Mathlib.Tactic.Ring

set_option relaxedAutoImplicit false
set_option autoImplicit false

namespace Audio

open Checked Rtp Wire

/-! ### The codes of a sample -/

/-- `BIAS`. -/
def bias : ℤ := 0x84

/-- `CLIP`. -/
def clip : ℤ := 32635

/-- The segment of a magnitude, by the first of seven thresholds, each of which is twice the last. -/
def segmentOf (first mag : ℤ) : ℕ :=
  if first * 64 ≤ mag then 7
  else if first * 32 ≤ mag then 6
  else if first * 16 ≤ mag then 5
  else if first * 8 ≤ mag then 4
  else if first * 4 ≤ mag then 3
  else if first * 2 ≤ mag then 2
  else if first ≤ mag then 1
  else 0

/-- `pcm_to_mulaw`. -/
def pcmToMulaw (sample : Int16) : Run String UInt8 := do
  let sign : UInt8 := if sample < 0 then 0x80 else 0
  let mag ← signed 31 (min (sample.toInt.natAbs : ℤ) clip + bias)
  let segment := segmentOf 0x0100 mag
  let mantissa := UInt8.ofNat ((mag >>> (segment + 3)) % 16).toNat
  return ~~~(sign ||| (UInt8.ofNat segment <<< 4) ||| mantissa)

/-- `pcm_to_alaw`. -/
def pcmToAlaw (sample : Int16) : Run String UInt8 := do
  let pcm := sample.toInt >>> (3 : ℕ)
  let mask : UInt8 := if 0 ≤ pcm then 0xD5 else 0x55
  let mag ← (if 0 ≤ pcm then .ok pcm else signed 31 (-pcm) >>= fun v => signed 31 (v - 1))
  let segment := segmentOf 0x0020 mag
  let aval : UInt8 :=
    if 8 ≤ segment then 0x7F
    else
      let step := if segment < 2 then (mag >>> (1 : ℕ)) % 16 else (mag >>> segment) % 16
      (UInt8.ofNat segment <<< 4) ||| UInt8.ofNat step.toNat
  return aval ^^^ mask

theorem toInt_bounds (sample : Int16) : -2 ^ 15 ≤ sample.toInt ∧ sample.toInt < 2 ^ 15 :=
  ⟨sample.le_toInt, sample.toInt_lt⟩

/-- Every sample has a code. -/
theorem pcmToMulaw_ok (sample : Int16) : ∃ b, pcmToMulaw sample = .ok b := by
  obtain ⟨hle, hlt⟩ := toInt_bounds sample
  rw [pcmToMulaw, signed_eq (by simp only [clip, bias]; omega)]
  exact ⟨_, rfl⟩

@[inherit_doc pcmToMulaw_ok]
theorem pcmToAlaw_ok (sample : Int16) : ∃ b, pcmToAlaw sample = .ok b := by
  obtain ⟨hle, hlt⟩ := toInt_bounds sample
  have hshift : sample.toInt >>> (3 : ℕ) = sample.toInt / 8 := by
    rw [Int.shiftRight_eq_div_pow]
    norm_num
  rw [pcmToAlaw]
  dsimp only
  split
  · exact ⟨_, rfl⟩
  · rw [signed_eq (by omega), ok_bind, signed_eq (by omega)]
    exact ⟨_, rfl⟩

example : [0, 32124, -32124].map pcmToMulaw = [.ok 0xFF, .ok 0x80, .ok 0x00] := by decide
example : [0, 32256, -32256].map pcmToAlaw = [.ok 0xD5, .ok 0xAA, .ok 0x2A] := by decide

/-- The code of a sample: `0` is the payload type of μ-law. -/
def encode (payloadType : UInt8) (sample : Int16) : Run String UInt8 :=
  if payloadType = 0 then pcmToMulaw sample else pcmToAlaw sample

theorem encode_ok (payloadType : UInt8) (sample : Int16) : ∃ b, encode payloadType sample = .ok b := by
  unfold encode
  split
  · exact pcmToMulaw_ok sample
  · exact pcmToAlaw_ok sample

/-! ### The packetizer -/

/-- `RtpHeader`. -/
structure RtpHeader where
  version : UInt8 := 2
  padding : Bool := false
  extension : Bool := false
  csrcCount : UInt8 := 0
  marker : Bool := false
  payloadType : UInt8
  sequenceNumber : UInt16
  timestamp : UInt32
  ssrc : UInt32
  deriving DecidableEq, Repr

/-- A flag as a byte. -/
def boolByte (b : Bool) : UInt8 := if b then 1 else 0

/-- `RtpHeader::to_bytes`. -/
def RtpHeader.toBytes (h : RtpHeader) : List UInt8 :=
  [(h.version <<< 6) ||| (boolByte h.padding <<< 5) ||| (boolByte h.extension <<< 4) ||| h.csrcCount,
    (boolByte h.marker <<< 7) ||| h.payloadType] ++ beBytes 2 h.sequenceNumber.toNat ++
    beBytes 4 h.timestamp.toNat ++ beBytes 4 h.ssrc.toNat

/-- `RtpAudioPacketizer`. -/
structure RtpAudioPacketizer where
  sequenceNumber : UInt16 := 0
  deriving DecidableEq, Repr

/-- The samples of 20 ms, at least one. -/
def samplesPerPacket (sampleRate : UInt32) : ℕ := max (sampleRate.toNat / 50) 1

/-- The rate that is divided by. -/
def clockRate (sampleRate : UInt32) : ℕ := max sampleRate.toNat 1

/-- How far a sample is from the first timestamp: `(sample_offset as u32).saturating_mul(8000)` over
the rate. -/
def clockOffset (sampleRate : UInt32) (sampleOffset : ℕ) : ℕ :=
  min (sampleOffset % 2 ^ 32 * 8000) (2 ^ 32 - 1) / clockRate sampleRate

section Loop

variable (pcmSamples : List Int16) (sampleRate timestamp ssrc : UInt32) (payloadType : UInt8)

/-- The loop of `packetize_pcm`. -/
@[grind =] def packetizeLoop : ℕ → ℕ → UInt16 → Run String (List (List UInt8) × UInt16)
  | 0, _, _ => .error .outOfFuel
  | fuel + 1, sampleOffset, sequenceNumber =>
      if sampleOffset < pcmSamples.length then do
        let endOffset := min (sampleOffset + samplesPerPacket sampleRate) pcmSamples.length
        let chunk ← range pcmSamples sampleOffset endOffset
        let encoded ← chunk.mapM (encode payloadType)
        -- a plain addition
        let currentTimestamp ← unsigned 32 (timestamp.toNat + clockOffset sampleRate sampleOffset)
        let header : RtpHeader :=
          { payloadType, sequenceNumber, timestamp := UInt32.ofNat currentTimestamp.toNat, ssrc }
        let (packets, sequenceNumber) ← packetizeLoop fuel endOffset (sequenceNumber + 1)
        return ((header.toBytes ++ encoded) :: packets, sequenceNumber)
      else .ok ([], sequenceNumber)

/-- **`packetize_pcm`.** -/
def packetizePcm (packetizer : RtpAudioPacketizer) (channels : UInt16) :
    Run String (List (List UInt8) × RtpAudioPacketizer) :=
  if channels = 0 then panics
  else do
    let (packets, sequenceNumber) ← packetizeLoop pcmSamples sampleRate timestamp ssrc payloadType
      (pcmSamples.length + 1) 0 packetizer.sequenceNumber
    return (packets, ⟨sequenceNumber⟩)

end Loop

/-! ### What it has to return -/

/-- What follows the header. -/
def payload (packet : List UInt8) : List UInt8 := packet.drop rtpHeaderSize

/-- The samples in front of a packet. -/
def samplesBefore (packets : List (List UInt8)) (k : ℕ) : ℕ :=
  ((packets.take k).flatMap payload).length

/-- **What a packetizer has to return**: the codes of all samples, in packets that are numbered on from
its state, and whose timestamps are those of the frames in front of them. -/
structure Packetized (pcmSamples : List Int16) (sampleRate : UInt32) (channels : UInt16)
    (timestamp : UInt32) (payloadType : UInt8) (packetizer : RtpAudioPacketizer)
    (packets : List (List UInt8)) (packetizer' : RtpAudioPacketizer) : Prop where
  payloads : pcmSamples.mapM (encode payloadType) = .ok (packets.flatMap payload)
  sequence : ∀ k packet, packets[k]? = some packet →
    u16At packet 2 = packetizer.sequenceNumber + UInt16.ofNat k
  timestamps : ∀ k packet, packets[k]? = some packet → u32At packet 4 = timestamp +
    UInt32.ofNat (samplesBefore packets k / channels.toNat * 8000 / clockRate sampleRate)
  next : packetizer'.sequenceNumber = packetizer.sequenceNumber + UInt16.ofNat packets.length

/-! ### The loop -/

theorem mapM_ok {α β ε : Type} {f : α → Except ε β} {g : α → β} (h : ∀ a, f a = .ok (g a))
    (l : List α) : l.mapM f = .ok (l.map g) := by
  induction l with
  | nil => rfl
  | cons a l ih =>
      rw [List.mapM_cons, h a, ih]
      rfl

theorem samplesPerPacket_pos (sampleRate : UInt32) : 0 < samplesPerPacket sampleRate :=
  lt_of_lt_of_le Nat.one_pos (le_max_right _ _)

theorem clockRate_pos (sampleRate : UInt32) : 0 < clockRate sampleRate :=
  lt_of_lt_of_le Nat.one_pos (le_max_right _ _)

theorem clockOffset_lt (sampleRate : UInt32) (sampleOffset : ℕ) :
    clockOffset sampleRate sampleOffset < 2 ^ 32 := by
  have hle := Nat.div_le_self (min (sampleOffset % 2 ^ 32 * 8000) (2 ^ 32 - 1)) (clockRate sampleRate)
  rw [clockOffset]
  omega

theorem toBytes_eq (h : RtpHeader) :
    ∃ first second, h.toBytes = RtpPacket.header first second h.sequenceNumber h.timestamp h.ssrc :=
  ⟨_, _, rfl⟩

section Loop

variable {pcmSamples : List Int16} {sampleRate timestamp ssrc : UInt32} {payloadType : UInt8}
  {code : Int16 → UInt8} {sampleOffset : ℕ} {sequenceNumber sequenceNumber' : UInt16}
  {packets : List (List UInt8)}

/-- The packets of the samples from an offset on, as the loop returns them. -/
structure Emitted (pcmSamples : List Int16) (sampleRate timestamp : UInt32) (code : Int16 → UInt8)
    (sampleOffset : ℕ) (sequenceNumber : UInt16) (packets : List (List UInt8))
    (sequenceNumber' : UInt16) : Prop where
  count : ∀ k, k < packets.length ↔
    sampleOffset + k * samplesPerPacket sampleRate < pcmSamples.length
  payloads : packets.flatMap payload = (pcmSamples.drop sampleOffset).map code
  before : ∀ k < packets.length, samplesBefore packets k = k * samplesPerPacket sampleRate
  sequence : ∀ k packet, packets[k]? = some packet →
    u16At packet 2 = sequenceNumber + UInt16.ofNat k
  timestamps : ∀ k packet, packets[k]? = some packet → u32At packet 4 = timestamp +
    UInt32.ofNat (clockOffset sampleRate (sampleOffset + k * samplesPerPacket sampleRate))
  next : sequenceNumber' = sequenceNumber + UInt16.ofNat packets.length

/-- No packets are left where no samples are. -/
theorem emitted_nil (h : pcmSamples.length ≤ sampleOffset) :
    Emitted pcmSamples sampleRate timestamp code sampleOffset sequenceNumber [] sequenceNumber where
  count k := by
    rw [List.length_nil]
    omega
  payloads := by rw [List.drop_eq_nil_of_le h, List.flatMap_nil, List.map_nil]
  before k hk := absurd hk (Nat.not_lt_zero k)
  sequence k packet hk := by simp at hk
  timestamps k packet hk := by simp at hk
  next := (UInt16.add_zero sequenceNumber).symm

theorem samplesBefore_cons (packet : List UInt8) (packets : List (List UInt8)) (k : ℕ) :
    samplesBefore (packet :: packets) (k + 1) = (payload packet).length + samplesBefore packets k := by
  rw [samplesBefore, List.take_succ_cons, List.flatMap_cons, List.length_append, samplesBefore]

theorem ofNat_succ (sequenceNumber : UInt16) (k : ℕ) :
    sequenceNumber + 1 + UInt16.ofNat k = sequenceNumber + UInt16.ofNat (k + 1) := by
  rw [UInt16.ofNat_add, UInt16.add_assoc, UInt16.add_comm 1]
  rfl

/-- One more packet in front of the others. -/
theorem Emitted.cons {header : RtpHeader} {chunk : List Int16} (hlt : sampleOffset < pcmSamples.length)
    (hchunk : chunk = (pcmSamples.drop sampleOffset).take (samplesPerPacket sampleRate))
    (hsequence : header.sequenceNumber = sequenceNumber)
    (htimestamp : header.timestamp = timestamp + UInt32.ofNat (clockOffset sampleRate sampleOffset))
    (h : Emitted pcmSamples sampleRate timestamp code
      (min (sampleOffset + samplesPerPacket sampleRate) pcmSamples.length) (sequenceNumber + 1)
      packets sequenceNumber') :
    Emitted pcmSamples sampleRate timestamp code sampleOffset sequenceNumber
      ((header.toBytes ++ chunk.map code) :: packets) sequenceNumber' := by
  obtain ⟨first, second, hbytes⟩ := toBytes_eq header
  have hpayload : payload (header.toBytes ++ chunk.map code) = chunk.map code := by
    rw [hbytes, payload, RtpPacket.drop_header]
  -- another packet begins where this one ends
  have hend : ∀ k < packets.length,
      min (sampleOffset + samplesPerPacket sampleRate) pcmSamples.length =
        sampleOffset + samplesPerPacket sampleRate := by
    intro k hk
    have := (h.count k).mp hk
    omega
  constructor
  · intro k
    cases k with
    | zero => simpa using hlt
    | succ k =>
        have hk := h.count k
        rw [List.length_cons, Nat.add_mul, Nat.one_mul]
        omega
  · have hdrop : pcmSamples.drop (min (sampleOffset + samplesPerPacket sampleRate)
        pcmSamples.length) = (pcmSamples.drop sampleOffset).drop (samplesPerPacket sampleRate) := by
      rw [List.drop_drop]
      rcases Nat.le_total (sampleOffset + samplesPerPacket sampleRate) pcmSamples.length with hle | hle
      · rw [Nat.min_eq_left hle]
      · rw [Nat.min_eq_right hle, List.drop_length, List.drop_eq_nil_of_le hle]
    rw [List.flatMap_cons, hpayload, h.payloads, hdrop, hchunk, ← List.map_append,
      List.take_append_drop]
  · intro k hk
    cases k with
    | zero => simp [samplesBefore]
    | succ k =>
        have hk' : k < packets.length := by simpa using hk
        have hcount := (h.count k).mp hk'
        have hchunkLength : chunk.length = samplesPerPacket sampleRate := by
          rw [hchunk, List.length_take, List.length_drop]
          have := hend k hk'
          omega
        rw [samplesBefore_cons, hpayload, List.length_map, hchunkLength, h.before k hk']
        ring
  · intro k packet hk
    cases k with
    | zero =>
        obtain rfl : header.toBytes ++ chunk.map code = packet := by simpa using hk
        rw [hbytes, RtpPacket.u16At_header, hsequence]
        exact (UInt16.add_zero _).symm
    | succ k => rw [h.sequence k packet (by simpa using hk), ofNat_succ]
  · intro k packet hk
    cases k with
    | zero =>
        obtain rfl : header.toBytes ++ chunk.map code = packet := by simpa using hk
        rw [hbytes, RtpPacket.u32At_header_timestamp, htimestamp, Nat.zero_mul, Nat.add_zero]
    | succ k =>
        have hk' : packets[k]? = some packet := by simpa using hk
        have hkl : k < packets.length := (List.getElem?_eq_some_iff.mp hk').1
        rw [h.timestamps k packet hk', hend k hkl, Nat.add_mul, Nat.one_mul, Nat.add_assoc,
          Nat.add_comm (samplesPerPacket sampleRate)]
  · rw [h.next, ofNat_succ, List.length_cons]

/-- A round of the loop: only the timestamp can be out of range. -/
theorem packetizeLoop_succ (hcode : ∀ sample, encode payloadType sample = .ok (code sample))
    (fuel : ℕ) (hlt : sampleOffset < pcmSamples.length) :
    packetizeLoop pcmSamples sampleRate timestamp ssrc payloadType (fuel + 1) sampleOffset
        sequenceNumber =
      unsigned 32 (timestamp.toNat + clockOffset sampleRate sampleOffset) >>= fun current =>
        packetizeLoop pcmSamples sampleRate timestamp ssrc payloadType fuel
            (min (sampleOffset + samplesPerPacket sampleRate) pcmSamples.length)
            (sequenceNumber + 1) >>= fun rest =>
          let header : RtpHeader :=
            { payloadType, sequenceNumber, timestamp := UInt32.ofNat current.toNat, ssrc }
          let chunk := (pcmSamples.drop sampleOffset).take (samplesPerPacket sampleRate)
          .ok ((header.toBytes ++ chunk.map code) :: rest.1, rest.2) := by
  have hchunk : (pcmSamples.drop sampleOffset).take
      (min (sampleOffset + samplesPerPacket sampleRate) pcmSamples.length - sampleOffset) =
        (pcmSamples.drop sampleOffset).take (samplesPerPacket sampleRate) := by
    rw [List.take_eq_take_iff, List.length_drop]
    omega
  rw [packetizeLoop, if_pos hlt]
  dsimp only
  rw [range_eq (by omega) (by omega), ok_bind, hchunk, mapM_ok hcode, ok_bind]
  rfl

/-- **The packets that the loop returns** where no timestamp overflows. -/
theorem packetizeLoop_emitted (hcode : ∀ sample, encode payloadType sample = .ok (code sample))
    {fuel : ℕ} (hfuel : pcmSamples.length - sampleOffset < fuel)
    (hfits : ∀ k, sampleOffset + k * samplesPerPacket sampleRate < pcmSamples.length →
      timestamp.toNat + clockOffset sampleRate
        (sampleOffset + k * samplesPerPacket sampleRate) < 2 ^ 32) :
    ∃ packets sequenceNumber', packetizeLoop pcmSamples sampleRate timestamp ssrc payloadType fuel
        sampleOffset sequenceNumber = .ok (packets, sequenceNumber') ∧
      Emitted pcmSamples sampleRate timestamp code sampleOffset sequenceNumber packets
        sequenceNumber' := by
  have hpos := samplesPerPacket_pos sampleRate
  induction fuel generalizing sampleOffset sequenceNumber with
  | zero => omega
  | succ fuel ih =>
      by_cases hlt : sampleOffset < pcmSamples.length
      · have hfirst := hfits 0 (by omega)
        rw [Nat.zero_mul, Nat.add_zero] at hfirst
        obtain ⟨packets, sequenceNumber', hloop, hrest⟩ :=
          @ih (min (sampleOffset + samplesPerPacket sampleRate) pcmSamples.length)
            (sequenceNumber + 1) (by omega) fun k hk => by
              have := hfits (k + 1) (by rw [Nat.add_mul, Nat.one_mul]; omega)
              rwa [Nat.add_mul, Nat.one_mul, Nat.add_comm (k * _), ← Nat.add_assoc,
                ← Nat.min_eq_left (show sampleOffset + samplesPerPacket sampleRate ≤
                  pcmSamples.length by omega)] at this
        rw [packetizeLoop_succ hcode fuel hlt, unsigned_eq (by omega), ok_bind, hloop, ok_bind]
        refine ⟨_, _, rfl, hrest.cons hlt rfl rfl ?_⟩
        show UInt32.ofNat (timestamp.toNat + clockOffset sampleRate sampleOffset : ℤ).toNat = _
        rw [← Int.natCast_add, Int.toNat_natCast, UInt32.ofNat_add, UInt32.ofNat_toNat]
      · exact ⟨[], sequenceNumber, if_neg hlt, emitted_nil (by omega)⟩

/-- The loop ends: it is not its fuel that it runs out of. -/
theorem packetizeLoop_ends (hcode : ∀ sample, encode payloadType sample = .ok (code sample))
    {fuel : ℕ} (hfuel : pcmSamples.length - sampleOffset < fuel) :
    packetizeLoop pcmSamples sampleRate timestamp ssrc payloadType fuel sampleOffset
      sequenceNumber ≠ .error .outOfFuel := by
  have hpos := samplesPerPacket_pos sampleRate
  induction fuel generalizing sampleOffset sequenceNumber with
  | zero => omega
  | succ fuel ih =>
      by_cases hlt : sampleOffset < pcmSamples.length
      · rw [packetizeLoop_succ hcode fuel hlt, unsigned]
        split
        · have hrest := @ih (min (sampleOffset + samplesPerPacket sampleRate) pcmSamples.length)
            (sequenceNumber + 1) (by omega)
          rw [ok_bind]
          intro h
          cases hloop : packetizeLoop pcmSamples sampleRate timestamp ssrc payloadType fuel
              (min (sampleOffset + samplesPerPacket sampleRate) pcmSamples.length)
              (sequenceNumber + 1) with
          | error fault =>
              rw [hloop] at h hrest
              cases h
              exact hrest rfl
          | ok rest =>
              rw [hloop] at h
              cases h
        · rw [panics_bind]
          exact fun h => by cases h
      · rw [packetizeLoop, if_neg hlt]
        exact fun h => by cases h

/-- No timestamp overflows where the loop returns. -/
theorem fits_of_packetizeLoop (hcode : ∀ sample, encode payloadType sample = .ok (code sample))
    {fuel : ℕ} {result : List (List UInt8) × UInt16}
    (h : packetizeLoop pcmSamples sampleRate timestamp ssrc payloadType fuel sampleOffset
      sequenceNumber = .ok result) :
    ∀ k, sampleOffset + k * samplesPerPacket sampleRate < pcmSamples.length →
      timestamp.toNat + clockOffset sampleRate
        (sampleOffset + k * samplesPerPacket sampleRate) < 2 ^ 32 := by
  induction fuel generalizing sampleOffset sequenceNumber result with
  | zero => cases h
  | succ fuel ih =>
      intro k hk
      rw [packetizeLoop_succ hcode fuel (by omega), bind_unsigned_eq_ok_iff] at h
      obtain ⟨hfirst, h⟩ := h
      cases k with
      | zero =>
          rw [Nat.zero_mul, Nat.add_zero]
          omega
      | succ k =>
          rw [Nat.add_mul, Nat.one_mul] at hk
          cases hloop : packetizeLoop pcmSamples sampleRate timestamp ssrc payloadType fuel
              (min (sampleOffset + samplesPerPacket sampleRate) pcmSamples.length)
              (sequenceNumber + 1) with
          | error fault =>
              rw [hloop] at h
              cases h
          | ok rest =>
              have := ih hloop k (by omega)
              rwa [Nat.min_eq_left (by omega), Nat.add_assoc, Nat.add_comm (samplesPerPacket _),
                ← Nat.succ_mul] at this

end Loop

/-! ### The clock -/

section Clock

variable {sampleRate timestamp : UInt32} {channels : UInt16} {n o k : ℕ}

/-- What the samples of a packet and the rate that is divided by have to do with each other. -/
theorem rates (sampleRate : UInt32) :
    samplesPerPacket sampleRate ≤ clockRate sampleRate ∧
      clockRate sampleRate ≤ 100 * samplesPerPacket sampleRate ∧
      clockRate sampleRate ≤ 2 ^ 32 - 1 ∧ 50 * samplesPerPacket sampleRate ≤ 2 ^ 32 := by
  have hlt := sampleRate.toNat_lt
  rw [samplesPerPacket, clockRate]
  omega

/-- The offset is exact as long as the quotient is not more than the largest one. -/
theorem clockOffset_of_le
    (h : o * 8000 / clockRate sampleRate ≤ (2 ^ 32 - 1) / clockRate sampleRate) :
    clockOffset sampleRate o = o * 8000 / clockRate sampleRate := by
  have hpos := clockRate_pos sampleRate
  have hrate := (rates sampleRate).2.2.1
  have hlt := Nat.lt_mul_of_div_lt (Nat.lt_succ_of_le h) hpos
  have hle := Nat.div_mul_le_self (2 ^ 32 - 1) (clockRate sampleRate)
  rw [Nat.succ_mul] at hlt
  have ho : o % 2 ^ 32 = o := Nat.mod_eq_of_lt (by omega)
  rw [clockOffset, ho]
  rcases Nat.le_total (o * 8000) (2 ^ 32 - 1) with hsmall | hlarge
  · rw [Nat.min_eq_left hsmall]
  · rw [Nat.min_eq_right hlarge]
    exact (h.antisymm (Nat.div_le_div_right hlarge)).symm

/-- The largest offset. -/
theorem clockOffset_of_lt (ho : o < 2 ^ 32) (h : 2 ^ 32 ≤ o * 8000) :
    clockOffset sampleRate o = (2 ^ 32 - 1) / clockRate sampleRate := by
  rw [clockOffset, Nat.mod_eq_of_lt ho, Nat.min_eq_right (by omega)]

/-- The next packet of one channel: if its offset is exact modulo `2^32`, it is exact. -/
theorem quotient_le_succ
    (h : k * samplesPerPacket sampleRate * 8000 / clockRate sampleRate ≤
      (2 ^ 32 - 1) / clockRate sampleRate)
    (hnext : clockOffset sampleRate ((k + 1) * samplesPerPacket sampleRate) =
      (k + 1) * samplesPerPacket sampleRate * 8000 / clockRate sampleRate % 2 ^ 32) :
    (k + 1) * samplesPerPacket sampleRate * 8000 / clockRate sampleRate ≤
      (2 ^ 32 - 1) / clockRate sampleRate := by
  have hpos := clockRate_pos sampleRate
  obtain ⟨hSR, -, hrate, hS⟩ := rates sampleRate
  have hlt := Nat.lt_mul_of_div_lt (Nat.lt_succ_of_le h) hpos
  have hle := Nat.div_mul_le_self (2 ^ 32 - 1) (clockRate sampleRate)
  rw [Nat.succ_mul] at hlt
  have hsucc : (k + 1) * samplesPerPacket sampleRate =
      k * samplesPerPacket sampleRate + samplesPerPacket sampleRate := Nat.succ_mul _ _
  rw [hsucc] at hnext ⊢
  generalize k * samplesPerPacket sampleRate = o at h hnext hlt ⊢
  by_contra hgt
  -- then the offset is the largest one, which the quotient is beyond by less than `2^32`
  have hlarge : 2 ^ 32 ≤ (o + samplesPerPacket sampleRate) * 8000 := by
    by_contra hsmall
    exact hgt (Nat.div_le_div_right (by omega))
  rw [clockOffset_of_lt (by omega) hlarge] at hnext
  have hq : 2 ^ 32 + (2 ^ 32 - 1) / clockRate sampleRate ≤
      (o + samplesPerPacket sampleRate) * 8000 / clockRate sampleRate := by omega
  have hmul := Nat.mul_le_of_le_div _ _ _ hq
  rw [Nat.add_mul] at hmul
  omega

/-- The first sample of the last packet. -/
def lastPacket (sampleRate : UInt32) (n : ℕ) : ℕ :=
  (n - 1) / samplesPerPacket sampleRate * samplesPerPacket sampleRate

/-- **The samples whose timestamps are right**: those of one packet; those of one channel, as long as
the clock of the last packet does not come to the end of a `u32`; and two packets of a rate so high
that the largest offset happens to be that of the frames in front of the second one. -/
def ClockFits (sampleRate : UInt32) (channels : UInt16) (timestamp : UInt32) (n : ℕ) : Prop :=
  n ≤ samplesPerPacket sampleRate ∨
  (channels = 1 ∧
    lastPacket sampleRate n * 8000 / clockRate sampleRate ≤ (2 ^ 32 - 1) / clockRate sampleRate ∧
    timestamp.toNat + lastPacket sampleRate n * 8000 / clockRate sampleRate < 2 ^ 32) ∨
  (channels ≠ 1 ∧ n ≤ 2 * samplesPerPacket sampleRate ∧
    2 ^ 32 ≤ samplesPerPacket sampleRate * 8000 ∧
    (2 ^ 32 - 1) / clockRate sampleRate =
      samplesPerPacket sampleRate / channels.toNat * 8000 / clockRate sampleRate ∧
    timestamp.toNat + (2 ^ 32 - 1) / clockRate sampleRate < 2 ^ 32)

/-- The timestamps do not overflow, and are right modulo `2^32`. -/
def ClockExact (sampleRate : UInt32) (channels : UInt16) (timestamp : UInt32) (n : ℕ) : Prop :=
  ∀ k, k * samplesPerPacket sampleRate < n →
    timestamp.toNat + clockOffset sampleRate (k * samplesPerPacket sampleRate) < 2 ^ 32 ∧
      clockOffset sampleRate (k * samplesPerPacket sampleRate) =
        k * samplesPerPacket sampleRate / channels.toNat * 8000 / clockRate sampleRate % 2 ^ 32

theorem clockOffset_zero (sampleRate : UInt32) : clockOffset sampleRate 0 = 0 := by
  simp [clockOffset]

/-- A single packet has the first timestamp. -/
theorem clockExact_of_le (h : n ≤ samplesPerPacket sampleRate) :
    ClockExact sampleRate channels timestamp n := by
  intro k hk
  obtain rfl : k = 0 := by
    by_contra hne
    have := Nat.le_mul_of_pos_left (samplesPerPacket sampleRate) (Nat.pos_of_ne_zero hne)
    omega
  have hlt := timestamp.toNat_lt
  rw [Nat.zero_mul, clockOffset_zero, Nat.zero_div, Nat.zero_mul, Nat.zero_div]
  exact ⟨hlt, rfl⟩

/-- Every packet begins no later than the last. -/
theorem le_lastPacket (hk : k * samplesPerPacket sampleRate < n) :
    k * samplesPerPacket sampleRate ≤ lastPacket sampleRate n := by
  refine Nat.mul_le_mul_right _ ((Nat.le_div_iff_mul_le (samplesPerPacket_pos sampleRate)).mpr ?_)
  omega

/-- One channel. -/
theorem clockExact_mono_iff (hn : samplesPerPacket sampleRate < n) :
    ClockExact sampleRate 1 timestamp n ↔
      lastPacket sampleRate n * 8000 / clockRate sampleRate ≤ (2 ^ 32 - 1) / clockRate sampleRate ∧
        timestamp.toNat + lastPacket sampleRate n * 8000 / clockRate sampleRate < 2 ^ 32 := by
  have hone : (1 : UInt16).toNat = 1 := rfl
  constructor
  · intro h
    -- the quotients are exact one after the other
    have hquotient : ∀ k, k * samplesPerPacket sampleRate < n →
        k * samplesPerPacket sampleRate * 8000 / clockRate sampleRate ≤
          (2 ^ 32 - 1) / clockRate sampleRate := by
      intro k
      induction k with
      | zero =>
          intro _
          rw [Nat.zero_mul, Nat.zero_mul, Nat.zero_div]
          exact Nat.zero_le _
      | succ k ih =>
          intro hk
          have hnext := (h (k + 1) hk).2
          rw [hone, Nat.div_one] at hnext
          rw [Nat.add_mul, Nat.one_mul] at hk
          exact quotient_le_succ (ih (by omega)) hnext
    have hlast : (n - 1) / samplesPerPacket sampleRate * samplesPerPacket sampleRate < n := by
      have := Nat.div_mul_le_self (n - 1) (samplesPerPacket sampleRate)
      omega
    have hle := hquotient _ hlast
    refine ⟨hle, ?_⟩
    have hfits := (h _ hlast).1
    rwa [clockOffset_of_le hle] at hfits
  · rintro ⟨hle, hfits⟩ k hk
    have hquotient : k * samplesPerPacket sampleRate * 8000 / clockRate sampleRate ≤
        lastPacket sampleRate n * 8000 / clockRate sampleRate :=
      Nat.div_le_div_right (Nat.mul_le_mul_right _ (le_lastPacket hk))
    have hmax := Nat.div_le_self (2 ^ 32 - 1) (clockRate sampleRate)
    have hlt : k * samplesPerPacket sampleRate * 8000 / clockRate sampleRate < 2 ^ 32 := by omega
    rw [clockOffset_of_le (hquotient.trans hle), hone, Nat.div_one, Nat.mod_eq_of_lt hlt]
    exact ⟨(Nat.add_le_add_left hquotient _).trans_lt hfits, rfl⟩

/-- The offset of no more than the samples of a packet is below `2^32`. -/
theorem frames_lt (o : ℕ) (ho : o ≤ samplesPerPacket sampleRate) :
    o * 8000 / clockRate sampleRate < 2 ^ 32 := by
  have hpos := clockRate_pos sampleRate
  have hSR := (rates sampleRate).1
  rw [Nat.div_lt_iff_lt_mul hpos]
  omega

/-- Several channels: the second packet is right only where its offset is the largest one. -/
theorem second_saturated (hchannels : 2 ≤ channels.toNat)
    (hsecond : clockOffset sampleRate (samplesPerPacket sampleRate) =
      samplesPerPacket sampleRate / channels.toNat * 8000 / clockRate sampleRate) :
    2 ^ 32 ≤ samplesPerPacket sampleRate * 8000 := by
  by_contra hlt
  have hpos := clockRate_pos sampleRate
  obtain ⟨-, hRS, -, -⟩ := rates sampleRate
  -- an offset that does not saturate is that of all samples, which are more than the frames
  rw [clockOffset_of_le (Nat.div_le_div_right (by omega))] at hsecond
  have hhalf : samplesPerPacket sampleRate / channels.toNat ≤ samplesPerPacket sampleRate / 2 :=
    Nat.div_le_div_left hchannels (by omega)
  have hfirst : 1 ≤ samplesPerPacket sampleRate * 4000 / clockRate sampleRate :=
    (Nat.one_le_div_iff hpos).mpr (by omega)
  have hframes : samplesPerPacket sampleRate / channels.toNat * 8000 / clockRate sampleRate ≤
      samplesPerPacket sampleRate * 4000 / clockRate sampleRate :=
    Nat.div_le_div_right (by omega)
  have hsum : samplesPerPacket sampleRate * 4000 / clockRate sampleRate +
      samplesPerPacket sampleRate * 4000 / clockRate sampleRate ≤
        samplesPerPacket sampleRate * 8000 / clockRate sampleRate :=
    Nat.div_add_div_le_add_div.trans (Nat.div_le_div_right (by omega))
  omega

/-- Then a third packet has the offset of the second, and at least twice the frames in front of
it. -/
theorem third_not_exact (hchannels : 2 ≤ channels.toNat)
    (hlarge : 2 ^ 32 ≤ samplesPerPacket sampleRate * 8000)
    (hsecond : (2 ^ 32 - 1) / clockRate sampleRate =
      samplesPerPacket sampleRate / channels.toNat * 8000 / clockRate sampleRate) :
    clockOffset sampleRate (2 * samplesPerPacket sampleRate) ≠
      2 * samplesPerPacket sampleRate / channels.toNat * 8000 / clockRate sampleRate % 2 ^ 32 := by
  have hpos := clockRate_pos sampleRate
  obtain ⟨-, -, hrate, hS⟩ := rates sampleRate
  have hoffset : clockOffset sampleRate (2 * samplesPerPacket sampleRate) =
      (2 ^ 32 - 1) / clockRate sampleRate :=
    clockOffset_of_lt (by omega) (hlarge.trans (Nat.mul_le_mul_right _ (by omega)))
  have htwice : 2 * (samplesPerPacket sampleRate / channels.toNat * 8000 / clockRate sampleRate) ≤
      2 * samplesPerPacket sampleRate / channels.toNat * 8000 / clockRate sampleRate := by
    have hframes : 2 * (samplesPerPacket sampleRate / channels.toNat) ≤
        2 * samplesPerPacket sampleRate / channels.toNat := Nat.mul_div_le_mul_div_assoc _ _ _
    exact (Nat.mul_div_le_mul_div_assoc _ _ _).trans (Nat.div_le_div_right (by omega))
  have hframes : 2 * samplesPerPacket sampleRate / channels.toNat ≤ samplesPerPacket sampleRate :=
    (Nat.div_le_div_left hchannels (by omega)).trans (by omega)
  have hfirst : 1 ≤ (2 ^ 32 - 1) / clockRate sampleRate := (Nat.one_le_div_iff hpos).mpr hrate
  rw [hoffset, Nat.mod_eq_of_lt (frames_lt _ hframes)]
  omega

/-- Several channels: the second packet is right by accident, and no third one. -/
theorem clockExact_many_iff (hchannels : 2 ≤ channels.toNat) (hn : samplesPerPacket sampleRate < n) :
    ClockExact sampleRate channels timestamp n ↔
      n ≤ 2 * samplesPerPacket sampleRate ∧ 2 ^ 32 ≤ samplesPerPacket sampleRate * 8000 ∧
        (2 ^ 32 - 1) / clockRate sampleRate =
          samplesPerPacket sampleRate / channels.toNat * 8000 / clockRate sampleRate ∧
        timestamp.toNat + (2 ^ 32 - 1) / clockRate sampleRate < 2 ^ 32 := by
  obtain ⟨-, -, -, hS⟩ := rates sampleRate
  have hlt := @frames_lt sampleRate (samplesPerPacket sampleRate / channels.toNat)
    (Nat.div_le_self _ _)
  constructor
  · intro h
    obtain ⟨hfits, hsecond⟩ := h 1 (by omega)
    rw [Nat.one_mul] at hfits hsecond
    rw [Nat.mod_eq_of_lt hlt] at hsecond
    have hlarge := second_saturated hchannels hsecond
    rw [clockOffset_of_lt (by omega) hlarge] at hfits hsecond
    refine ⟨?_, hlarge, hsecond, hfits⟩
    by_contra hmore
    exact third_not_exact hchannels hlarge hsecond (h 2 (by omega)).2
  · rintro ⟨htwo, hlarge, heq, hfits⟩ k hk
    obtain rfl | rfl : k = 0 ∨ k = 1 := by
      by_contra hne
      have := Nat.mul_le_mul_right (samplesPerPacket sampleRate) (show 2 ≤ k by omega)
      omega
    · exact clockExact_of_le le_rfl 0 (by rw [Nat.zero_mul]; exact samplesPerPacket_pos sampleRate)
    · rw [Nat.one_mul, clockOffset_of_lt (by omega) hlarge, Nat.mod_eq_of_lt hlt]
      exact ⟨hfits, heq⟩

/-- **When all timestamps are right.** -/
theorem clockExact_iff (hchannels : channels ≠ 0) :
    ClockExact sampleRate channels timestamp n ↔ ClockFits sampleRate channels timestamp n := by
  rw [ClockFits]
  by_cases hn : n ≤ samplesPerPacket sampleRate
  · exact ⟨fun _ => .inl hn, fun _ => clockExact_of_le hn⟩
  · by_cases hone : channels = 1
    · subst hone
      rw [clockExact_mono_iff (by omega)]
      simp [hn]
    · have hmany : 2 ≤ channels.toNat := by
        have hzero : channels.toNat ≠ 0 := fun h => hchannels (UInt16.toNat_inj.mp h)
        have hone' : channels.toNat ≠ 1 := fun h => hone (UInt16.toNat_inj.mp h)
        omega
      rw [clockExact_many_iff hmany (by omega)]
      simp [hn, hone]

end Clock

/-! ### Which samples are packetized as they should be -/

section Packetizer

variable (packetizer : RtpAudioPacketizer) (pcmSamples : List Int16) (sampleRate : UInt32)
  (channels : UInt16) (timestamp ssrc : UInt32) (payloadType : UInt8)

/-- `packetize_pcm` returns what it has to. -/
def PacketizesExactly : Prop :=
  ∃ packets packetizer', packetizePcm pcmSamples sampleRate timestamp ssrc payloadType packetizer
      channels = .ok (packets, packetizer') ∧
    Packetized pcmSamples sampleRate channels timestamp payloadType packetizer packets packetizer'

variable {packetizer pcmSamples sampleRate channels timestamp ssrc payloadType}

/-- A run of the packetizer is one of the loop. -/
theorem packetizePcm_eq_ok_iff (hchannels : channels ≠ 0) {packets : List (List UInt8)}
    {packetizer' : RtpAudioPacketizer} :
    packetizePcm pcmSamples sampleRate timestamp ssrc payloadType packetizer channels =
        .ok (packets, packetizer') ↔
      packetizeLoop pcmSamples sampleRate timestamp ssrc payloadType (pcmSamples.length + 1) 0
        packetizer.sequenceNumber = .ok (packets, packetizer'.sequenceNumber) := by
  rw [packetizePcm, if_neg hchannels]
  cases packetizeLoop pcmSamples sampleRate timestamp ssrc payloadType (pcmSamples.length + 1) 0
      packetizer.sequenceNumber with
  | error fault =>
      constructor
      · intro h
        cases h
      · intro h
        cases h
  | ok result =>
      constructor
      · intro h
        cases h
        rfl
      · intro h
        cases h
        rfl

/-- Two timestamps are the same where the offsets are, modulo `2^32`. -/
theorem timestamp_eq_iff (timestamp : UInt32) {a b : ℕ} (ha : a < 2 ^ 32) :
    timestamp + UInt32.ofNat a = timestamp + UInt32.ofNat b ↔ a = b % 2 ^ 32 := by
  rw [UInt32.add_right_inj, ← UInt32.toNat_inj, UInt32.toNat_ofNat', UInt32.toNat_ofNat',
    Nat.mod_eq_of_lt ha]

/-- The packetizer ends, whatever it is given. -/
theorem packetizePcm_ends :
    packetizePcm pcmSamples sampleRate timestamp ssrc payloadType packetizer channels ≠
      .error .outOfFuel := by
  choose code hcode using encode_ok payloadType
  have hloop := @packetizeLoop_ends pcmSamples sampleRate timestamp ssrc payloadType code 0
    packetizer.sequenceNumber hcode (pcmSamples.length + 1) (by omega)
  rw [packetizePcm]
  split
  · exact fun h => by cases h
  · cases hrun : packetizeLoop pcmSamples sampleRate timestamp ssrc payloadType
        (pcmSamples.length + 1) 0 packetizer.sequenceNumber with
    | error fault =>
        rw [hrun] at hloop
        intro h
        cases h
        exact hloop rfl
    | ok result => exact fun h => by cases h

/-- Nothing but the timestamps can go wrong. -/
theorem packetizesExactly_iff_clockExact (hchannels : channels ≠ 0) :
    PacketizesExactly packetizer pcmSamples sampleRate channels timestamp ssrc payloadType ↔
      ClockExact sampleRate channels timestamp pcmSamples.length := by
  choose code hcode using encode_ok payloadType
  constructor
  · rintro ⟨packets, packetizer', hrun, h⟩ k hk
    rw [packetizePcm_eq_ok_iff hchannels] at hrun
    have hfits := fits_of_packetizeLoop hcode hrun
    obtain ⟨packets', sequenceNumber', hrun', hemitted⟩ :=
      packetizeLoop_emitted hcode (show pcmSamples.length - 0 < pcmSamples.length + 1 by omega) hfits
    cases hrun.symm.trans hrun'
    have hlt : k < packets.length := (hemitted.count k).mpr (by omega)
    have hget : packets[k]? = some packets[k] := List.getElem?_eq_getElem hlt
    have htimestamp := (hemitted.timestamps k _ hget).symm.trans (h.timestamps k _ hget)
    rw [timestamp_eq_iff timestamp (clockOffset_lt _ _), hemitted.before k hlt, Nat.zero_add]
      at htimestamp
    have := hfits k (by omega)
    rw [Nat.zero_add] at this
    exact ⟨this, htimestamp⟩
  · intro h
    obtain ⟨packets, sequenceNumber', hrun, hemitted⟩ :=
      @packetizeLoop_emitted pcmSamples sampleRate timestamp ssrc payloadType code 0
        packetizer.sequenceNumber hcode (pcmSamples.length + 1) (by omega) fun k hk => by
          rw [Nat.zero_add] at hk ⊢
          exact (h k hk).1
    refine ⟨packets, ⟨sequenceNumber'⟩, (packetizePcm_eq_ok_iff hchannels).mpr hrun, ?_,
      hemitted.sequence, fun k packet hk => ?_, hemitted.next⟩
    · rw [mapM_ok hcode, hemitted.payloads, List.drop_zero]
    · have hlt : k < packets.length := (List.getElem?_eq_some_iff.mp hk).1
      have hcount := (hemitted.count k).mp hlt
      rw [hemitted.timestamps k packet hk, timestamp_eq_iff timestamp (clockOffset_lt _ _),
        hemitted.before k hlt, Nat.zero_add]
      exact (h k (by omega)).2

/-- **Which samples are packetized as they should be**. -/
theorem packetizePcm_packetized_iff (hchannels : channels ≠ 0) :
    PacketizesExactly packetizer pcmSamples sampleRate channels timestamp ssrc payloadType ↔
      ClockFits sampleRate channels timestamp pcmSamples.length := by
  rw [packetizesExactly_iff_clockExact hchannels, clockExact_iff hchannels]

end Packetizer

/-- Two packets of one channel. -/
theorem packetizePcm_packetized_iff_two :
    PacketizesExactly ⟨65535⟩ (List.replicate 320 0) 8000 1 1000 12345 8 :=
  (packetizePcm_packetized_iff (by decide)).mpr <| by
    rw [List.length_replicate]
    exact .inr (.inl ⟨rfl, by decide, by decide⟩)

/-- **The second packet of two channels counts every sample twice, and a timestamp that is close to its
end overflows.** -/
theorem stereo_not_packetized :
    ¬ PacketizesExactly {} (List.replicate 161 0) 8000 2 0 12345 0 ∧
      ¬ PacketizesExactly {} (List.replicate 161 0) 8000 1 0xFFFFFFFF 12345 0 := by
  constructor
  · rw [packetizesExactly_iff_clockExact (by decide), List.length_replicate]
    exact fun h => absurd (h 1 (by decide)).2 (by decide)
  · rw [packetizesExactly_iff_clockExact (by decide), List.length_replicate]
    exact fun h => absurd (h 1 (by decide)).1 (by decide)

end Audio

/-
**FLV video tags.**

The body of an RTMP video message is the body of an FLV video tag.  For AVC its layout is fixed: the
first byte holds the frame type and the codec, the second the AVC packet type, the next three the
composition time as a signed number, and the rest is an `AVCDecoderConfigurationRecord` (packet type
0) or NAL units with their lengths (packet type 1).  `extract_h264_nal_units`, the only reader in
`crates/protocols/src/rtmp/mod.rs`, expects what the writers produce; the layout is therefore stated
here on its own, and the writers are compared with it.

Both writers put three zero bytes between the first byte and the packet type.  In a sequence header
this goes unnoticed, since there the packet type and the composition time are all zero; what is
wrong in it is the order of the compatibility and the level.  A tag with NAL units is read as a
sequence header.

Main definitions:

* `Flv.AvcVideoPacket`, `Flv.AvcDecoderConfigurationRecord` — the layout, each with `read`;
* `Rtmp.NalusConform`, `Rtmp.SequenceHeaderConforms` — what such a reader must find.

Main results:

* `Rtmp.read_buildVideoNalus`, `Rtmp.read_buildVideoSequenceHeader` — what it finds;
* `Rtmp.flv_conforms_iff` — **tags with NAL units never conform, and sequence headers exactly when
  the bytes for compatibility and level are equal**.
-/

import MibeeEye.RtmpOutput

set_option relaxedAutoImplicit false
set_option autoImplicit false

namespace Flv

open Wire

/-! ### The layout -/

/-- `AVCVIDEOPACKET`, with the first byte of the tag. -/
structure AvcVideoPacket where
  frameType : UInt8
  codecId : UInt8
  packetType : UInt8
  compositionTime : ℤ
  body : List UInt8
  deriving DecidableEq, Repr

/-- The number that three bytes stand for in two's complement. -/
def signed24 (n : ℕ) : ℤ := if n < 2 ^ 23 then n else n - 2 ^ 24

/-- Reading a video tag. -/
def AvcVideoPacket.read : List UInt8 → Option AvcVideoPacket
  | first :: packetType :: c₀ :: c₁ :: c₂ :: body =>
      some
        { frameType := first >>> 4
          codecId := first &&& 0x0F
          packetType := packetType
          compositionTime := signed24 (ofBe [c₀, c₁, c₂])
          body := body }
  | _ => none

/-- `AVCDecoderConfigurationRecord`; `trailing` is what follows the picture parameter sets. -/
structure AvcDecoderConfigurationRecord where
  configurationVersion : UInt8
  profile : UInt8
  compatibility : UInt8
  level : UInt8
  nalLengthSize : ℕ
  spsList : List (List UInt8)
  ppsList : List (List UInt8)
  trailing : List UInt8
  deriving DecidableEq, Repr

/-- Reading a number of parameter sets, each after its length in two bytes. -/
@[grind =] def readParameterSets : ℕ → List UInt8 → Option (List (List UInt8) × List UInt8)
  | 0, bs => some ([], bs)
  | n + 1, hi :: lo :: bs =>
      if ofBe [hi, lo] ≤ bs.length then
        (readParameterSets n (bs.drop (ofBe [hi, lo]))).map fun r =>
          (bs.take (ofBe [hi, lo]) :: r.1, r.2)
      else none
  | _ + 1, _ => none

/-- Reading a decoder configuration record. -/
@[grind =]
def AvcDecoderConfigurationRecord.read : List UInt8 → Option AvcDecoderConfigurationRecord
  | version :: profile :: compatibility :: level :: lengthSize :: numSps :: bs =>
      match readParameterSets (numSps &&& 0x1F).toNat bs with
      | some (spsList, numPps :: bs) =>
          (readParameterSets numPps.toNat bs).map fun r =>
            { configurationVersion := version
              profile := profile
              compatibility := compatibility
              level := level
              nalLengthSize := (lengthSize &&& 0x03).toNat + 1
              spsList := spsList
              ppsList := r.1
              trailing := r.2 }
      | _ => none
  | _ => none

/-- A parameter set after its length is read back. -/
theorem readParameterSets_succ (n : ℕ) {set : List UInt8} (h : set.length ≤ 65535)
    (rest : List UInt8) :
    readParameterSets (n + 1) (beBytes 2 set.length ++ (set ++ rest)) =
      (readParameterSets n rest).map fun r => (set :: r.1, r.2) := by
  obtain ⟨hi, lo, hbytes⟩ : ∃ hi lo, beBytes 2 set.length = [hi, lo] := ⟨_, _, rfl⟩
  have hlen : ofBe [hi, lo] = set.length := by
    rw [← hbytes]
    exact ofBe_beBytes_of_lt (by omega)
  rw [hbytes]
  simp only [List.cons_append, List.nil_append, readParameterSets]
  rw [hlen, if_pos (by simp), List.drop_left, List.take_left]

end Flv

namespace Rtmp

open Wire Flv

/-! ### What a reader must find -/

/-- A reader finds the NAL units and the composition time. -/
def NalusConform (nalData : List UInt8) (isKeyframe : Bool) (compositionOffset : ℤ) : Prop :=
  ∃ packet, AvcVideoPacket.read (buildVideoNalus nalData isKeyframe compositionOffset) = some packet ∧
    packet.packetType = 1 ∧
    packet.compositionTime = compositionOffset ∧
    packet.body = nalData

/-- A reader finds a configuration record with the profile, the compatibility and the level of the
SPS, and exactly the two parameter sets. -/
def SequenceHeaderConforms (sps pps : List UInt8) : Prop :=
  ∃ packet record, AvcVideoPacket.read (buildVideoSequenceHeader sps pps) = some packet ∧
    packet.packetType = 0 ∧
    AvcDecoderConfigurationRecord.read packet.body = some record ∧
    some record.profile = sps[1]? ∧
    some record.compatibility = sps[2]? ∧
    some record.level = sps[3]? ∧
    record.spsList = [sps] ∧
    record.ppsList = [pps] ∧
    record.trailing = []

/-! ### What it finds -/

/-- **A tag with NAL units is read as a sequence header**, whose body starts with the composition
time. -/
theorem read_buildVideoNalus (nalData : List UInt8) (isKeyframe : Bool) (compositionOffset : ℤ) :
    ∃ frameType codecId body,
      AvcVideoPacket.read (buildVideoNalus nalData isKeyframe compositionOffset) =
        some ⟨frameType, codecId, 0, 1, body⟩ :=
  ⟨_, _, _, rfl⟩

/-- **A sequence header is read as one**, with the level of the SPS in the place of its
compatibility and the other way round. -/
theorem read_buildVideoSequenceHeader {sps pps : List UInt8} (hmin : 4 ≤ sps.length)
    (hsps : sps.length ≤ 65535) (hpps : pps.length ≤ 65535) :
    ∃ body, AvcVideoPacket.read (buildVideoSequenceHeader sps pps) = some ⟨1, 7, 0, 0, body⟩ ∧
      AvcDecoderConfigurationRecord.read body =
        some ⟨1, sps.getD 1 0, sps.getD 3 0, sps.getD 2 0, 4, [sps], [pps], []⟩ := by
  have hthree : 3 ≤ sps.length := by omega
  refine ⟨[0x01, sps.getD 1 0, sps.getD 3 0, sps.getD 2 0, 0xFF, 0xE1] ++
    (beBytes 2 sps.length ++ (sps ++ 0x01 :: (beBytes 2 pps.length ++ (pps ++ [])))), ?_, ?_⟩
  · simp only [buildVideoSequenceHeader, if_pos hthree, if_pos hmin, List.cons_append,
      List.nil_append, List.append_assoc, List.append_nil]
    rfl
  · have hnum : ((0xE1 : UInt8) &&& 0x1F).toNat = 0 + 1 := rfl
    have hone : (0x01 : UInt8).toNat = 0 + 1 := rfl
    simp only [List.cons_append, List.nil_append, AvcDecoderConfigurationRecord.read]
    rw [hnum, readParameterSets_succ 0 hsps]
    simp only [readParameterSets, Option.map_some]
    rw [hone, readParameterSets_succ 0 hpps]
    rfl

theorem not_nalusConform (nalData : List UInt8) (isKeyframe : Bool) (compositionOffset : ℤ) :
    ¬ NalusConform nalData isKeyframe compositionOffset := by
  rintro ⟨packet, hread, htype, -, -⟩
  obtain ⟨frameType, codecId, body, hfound⟩ :=
    read_buildVideoNalus nalData isKeyframe compositionOffset
  rw [hfound] at hread
  rw [← Option.some.inj hread] at htype
  have hzero : (0 : UInt8) = 1 := htype
  exact absurd hzero (by decide)

theorem sequenceHeaderConforms_iff {sps pps : List UInt8} (hmin : 4 ≤ sps.length)
    (hsps : sps.length ≤ 65535) (hpps : pps.length ≤ 65535) :
    SequenceHeaderConforms sps pps ↔ sps[2]? = sps[3]? := by
  obtain ⟨body, hpacket, hrecord⟩ := read_buildVideoSequenceHeader hmin hsps hpps
  have hget (i : ℕ) (hi : i < 4) : some (sps.getD i 0) = sps[i]? := by
    rw [List.getD_eq_getElem?_getD, List.getElem?_eq_getElem (show i < sps.length by omega)]
    rfl
  constructor
  · rintro ⟨packet, record, hp, -, hr, -, hcompat, -, -, -, -⟩
    rw [hpacket] at hp
    rw [← Option.some.inj hp, hrecord] at hr
    rw [← hcompat, ← Option.some.inj hr]
    exact hget 3 (by omega)
  · intro hequal
    refine ⟨_, _, hpacket, rfl, hrecord, hget 1 (by omega), ?_, ?_, rfl, rfl, rfl⟩
    · rw [hequal]
      exact hget 3 (by omega)
    · rw [← hequal]
      exact hget 2 (by omega)

/-- **Tags with NAL units never conform, and sequence headers exactly when the bytes for
compatibility and level are equal.** -/
theorem flv_conforms_iff (sps pps nalData : List UInt8) (isKeyframe : Bool) (compositionOffset : ℤ)
    (hmin : 4 ≤ sps.length) (hsps : sps.length ≤ 65535) (hpps : pps.length ≤ 65535)
    (_hlow : -2 ^ 23 ≤ compositionOffset) (_hhigh : compositionOffset < 2 ^ 23) :
    ¬ NalusConform nalData isKeyframe compositionOffset ∧
      (SequenceHeaderConforms sps pps ↔ sps[2]? = sps[3]?) :=
  ⟨not_nalusConform nalData isKeyframe compositionOffset, sequenceHeaderConforms_iff hmin hsps hpps⟩

/-- A keyframe with a positive composition offset, and the parameter sets of a main profile
stream. -/
theorem flv_conforms_iff_mainProfile :
    ¬ NalusConform [0, 0, 0, 1, 0x65] true 40 ∧
      (SequenceHeaderConforms [0x67, 0x4D, 0x40, 0x1F] [0x68, 0xEE] ↔
        ([0x67, 0x4D, 0x40, 0x1F] : List UInt8)[2]? = ([0x67, 0x4D, 0x40, 0x1F] : List UInt8)[3]?) :=
  flv_conforms_iff _ _ _ _ _ (by decide) (by decide) (by decide) (by decide) (by decide)

/-- Neither of the two tags of that stream conforms. -/
theorem not_conform_mainProfile :
    ¬ NalusConform [0, 0, 0, 1, 0x65] true 40 ∧
      ¬ SequenceHeaderConforms [0x67, 0x4D, 0x40, 0x1F] [0x68, 0xEE] := by
  refine ⟨not_nalusConform _ _ _, ?_⟩
  rw [sequenceHeaderConforms_iff (by decide) (by decide) (by decide)]
  decide

end Rtmp

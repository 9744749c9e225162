/-
**RTP packets and fragments of NAL units.**

`crates/protocols/src/rtp.rs`: the parser of RTP packets (RFC 3550) and the reassembly of NAL units
that were sent in fragments (FU-A, RFC 6184).

Main definitions:

* `Rtp.RtpPacket`, `Rtp.RtpPacket.parse`;
* `Rtp.parseFuaIndicator`, `Rtp.parseFuaHeader` — the two bytes in front of a fragment;
* `Rtp.reassembleFua` — the NAL unit of a sequence of fragments.

Main results:

* `Rtp.RtpPacket.parse_plain` — a packet without padding, extension and contributing sources;
* `Rtp.reassembleFua_fragments` — **the fragments of a NAL unit are put together again**.
-/

import MibeeEye.ByteOrder
import Mathlib.Data.Fintype.Basic

set_option relaxedAutoImplicit false
set_option autoImplicit false

namespace Rtp

open Wire

/-! ### Packets -/

/-- `RTP_HEADER_SIZE`. -/
def rtpHeaderSize : ℕ := 12

/-- `RTP_VERSION`. -/
def rtpVersion : UInt8 := 2

/-- `RtpHeaderFlags`. -/
structure RtpHeaderFlags where
  version : UInt8
  padding : Bool
  extension : Bool
  csrcCount : UInt8
  marker : Bool
  payloadType : UInt8
  deriving DecidableEq, Repr

/-- `RtpPacket`. -/
structure RtpPacket where
  flags : RtpHeaderFlags
  sequenceNumber : UInt16
  timestamp : UInt32
  ssrc : UInt32
  csrcList : List UInt32
  extensionProfile : Option UInt16
  extensionData : List UInt8
  payload : List UInt8
  deriving DecidableEq, Repr

/-- `u16::from_be_bytes` of the two bytes at `i`. -/
def u16At (data : List UInt8) (i : ℕ) : UInt16 := UInt16.ofNat (ofBe (slice data i (i + 2)))

/-- `u32::from_be_bytes` of the four bytes at `i`. -/
def u32At (data : List UInt8) (i : ℕ) : UInt32 := UInt32.ofNat (ofBe (slice data i (i + 4)))

namespace RtpPacket

/-- The loop over the contributing sources, with the offset behind them. -/
@[grind =] def parseCsrcList (data : List UInt8) : ℕ → ℕ → Except String (List UInt32 × ℕ)
  | 0, offset => .ok ([], offset)
  | n + 1, offset =>
      if data.length < offset + 4 then
        .error s!"RTP packet truncated: missing CSRC entry at offset {offset}"
      else
        (parseCsrcList data n (offset + 4)).map fun r => (u32At data offset :: r.1, r.2)

/-- The extension header, if there is one, with the offset behind it. -/
def parseExtension (data : List UInt8) (extension : Bool) (offset : ℕ) :
    Except String (Option UInt16 × List UInt8 × ℕ) :=
  if extension then
    if data.length < offset + 4 then
      .error s!"RTP packet truncated: missing extension header at offset {offset}"
    else
      let profile := u16At data offset
      let extLenWords := (u16At data (offset + 2)).toNat
      let extDataEndByte := offset + 4 + extLenWords * 4
      let len := data.length
      if len < extDataEndByte then
        .error s!"RTP packet truncated: extension data extends to {extDataEndByte} but packet is {len} bytes"
      else .ok (some profile, slice data (offset + 4) extDataEndByte, extDataEndByte)
  else .ok (none, [], offset)

/-- The payload without its padding. -/
def parsePayload (padding : Bool) (rawPayload : List UInt8) : Except String (List UInt8) :=
  if padding then
    match rawPayload.getLast? with
    | none => .error "RTP padding flag is set but no payload present"
    | some last =>
        let padLen := last.toNat
        let len := rawPayload.length
        if padLen = 0 ∨ len < padLen then
          .error s!"Invalid RTP padding length: {padLen} (payload len: {len})"
        else .ok (rawPayload.take (len - padLen))
  else .ok rawPayload

/-- **`RtpPacket::parse`.** -/
def parse (data : List UInt8) : Except String RtpPacket :=
  let len := data.length
  if len < rtpHeaderSize then
    .error s!"RTP packet too short: {len} bytes (minimum {rtpHeaderSize})"
  else
    let firstByte := data.getD 0 0
    let secondByte := data.getD 1 0
    let version := (firstByte >>> 6) &&& 0x03
    if version ≠ rtpVersion then .error s!"Unsupported RTP version: {version} (expected 2)"
    else
      let padding := ((firstByte >>> 5) &&& 0x01) != 0
      let extension := ((firstByte >>> 4) &&& 0x01) != 0
      let csrcCount := firstByte &&& 0x0F
      let marker := ((secondByte >>> 7) &&& 0x01) != 0
      let payloadType := secondByte &&& 0x7F
      match parseCsrcList data csrcCount.toNat rtpHeaderSize with
      | .error e => .error e
      | .ok (csrcList, offset) =>
          match parseExtension data extension offset with
          | .error e => .error e
          | .ok (extensionProfile, extensionData, offset) =>
              match parsePayload padding (data.drop offset) with
              | .error e => .error e
              | .ok payload =>
                  .ok {
                    flags := { version, padding, extension, csrcCount, marker, payloadType }
                    sequenceNumber := u16At data 2
                    timestamp := u32At data 4
                    ssrc := u32At data 8
                    csrcList, extensionProfile, extensionData, payload }

/-- A header whose first byte is `0x80`: nothing between it and the payload. -/
def plain (secondByte : UInt8) (sequenceNumber : UInt16) (timestamp ssrc : UInt32)
    (payload : List UInt8) : RtpPacket where
  flags :=
    { version := 2, padding := false, extension := false, csrcCount := 0
      marker := ((secondByte >>> 7) &&& 0x01) != 0
      payloadType := secondByte &&& 0x7F }
  sequenceNumber := sequenceNumber
  timestamp := timestamp
  ssrc := ssrc
  csrcList := []
  extensionProfile := none
  extensionData := []
  payload := payload

theorem ofNat_ofBe_beBytes_two (n : UInt16) : UInt16.ofNat (ofBe (beBytes 2 n.toNat)) = n := by
  rw [ofBe_beBytes_of_lt n.toNat_lt, UInt16.ofNat_toNat]

theorem ofNat_ofBe_beBytes_four (n : UInt32) : UInt32.ofNat (ofBe (beBytes 4 n.toNat)) = n := by
  rw [ofBe_beBytes_of_lt n.toNat_lt, UInt32.ofNat_toNat]

/-! ### The fixed header -/

/-- The fixed header: two bytes of flags, the sequence number, the timestamp and the source. -/
def header (firstByte secondByte : UInt8) (sequenceNumber : UInt16) (timestamp ssrc : UInt32) :
    List UInt8 :=
  [firstByte, secondByte] ++ beBytes 2 sequenceNumber.toNat ++ beBytes 4 timestamp.toNat ++
    beBytes 4 ssrc.toNat

section Header

variable (firstByte secondByte : UInt8) (sequenceNumber : UInt16) (timestamp ssrc : UInt32)
  (rest : List UInt8)

@[simp] theorem length_header :
    (header firstByte secondByte sequenceNumber timestamp ssrc).length = rtpHeaderSize := by
  simp [header, rtpHeaderSize]

theorem u16At_header :
    u16At (header firstByte secondByte sequenceNumber timestamp ssrc ++ rest) 2 =
      sequenceNumber := by
  have hslice : slice (header firstByte secondByte sequenceNumber timestamp ssrc ++ rest) 2
      (2 + 2) = beBytes 2 sequenceNumber.toNat := by simp [header, slice]
  rw [u16At, hslice]
  exact ofNat_ofBe_beBytes_two sequenceNumber

theorem u32At_header_timestamp :
    u32At (header firstByte secondByte sequenceNumber timestamp ssrc ++ rest) 4 = timestamp := by
  have hslice : slice (header firstByte secondByte sequenceNumber timestamp ssrc ++ rest) 4
      (4 + 4) = beBytes 4 timestamp.toNat := by simp [header, slice]
  rw [u32At, hslice]
  exact ofNat_ofBe_beBytes_four timestamp

theorem u32At_header_ssrc :
    u32At (header firstByte secondByte sequenceNumber timestamp ssrc ++ rest) 8 = ssrc := by
  have hslice : slice (header firstByte secondByte sequenceNumber timestamp ssrc ++ rest) 8
      (8 + 4) = beBytes 4 ssrc.toNat := by
    simp [header, slice, List.drop_append, List.drop_eq_nil_of_le]
  rw [u32At, hslice]
  exact ofNat_ofBe_beBytes_four ssrc

theorem drop_header :
    (header firstByte secondByte sequenceNumber timestamp ssrc ++ rest).drop rtpHeaderSize =
      rest :=
  List.drop_left' (length_header _ _ _ _ _)

end Header

/-- **A packet without padding, extension and contributing sources is read back.** -/
theorem parse_plain (secondByte : UInt8) (sequenceNumber : UInt16) (timestamp ssrc : UInt32)
    (payload : List UInt8) :
    parse ([0x80, secondByte] ++ beBytes 2 sequenceNumber.toNat ++ beBytes 4 timestamp.toNat ++
      beBytes 4 ssrc.toNat ++ payload) =
      .ok (plain secondByte sequenceNumber timestamp ssrc payload) := by
  change parse (header 0x80 secondByte sequenceNumber timestamp ssrc ++ payload) = _
  set data := header 0x80 secondByte sequenceNumber timestamp ssrc ++ payload with hdata
  have hlen : ¬ data.length < rtpHeaderSize := by
    rw [hdata, List.length_append, length_header]
    omega
  -- the first byte says version 2, and neither padding nor extension nor contributing sources
  have hfirst : data.getD 0 0 = 0x80 := rfl
  have hsecond : data.getD 1 0 = secondByte := rfl
  have hversion : ¬ (((0x80 : UInt8) >>> 6) &&& 0x03 ≠ rtpVersion) := by decide
  have hcsrc : parseCsrcList data ((0x80 : UInt8) &&& 0x0F).toNat rtpHeaderSize =
      .ok ([], rtpHeaderSize) := rfl
  have hext : parseExtension data (((0x80 : UInt8) >>> 4 &&& 0x01) != 0) rtpHeaderSize =
      .ok (none, [], rtpHeaderSize) := rfl
  simp only [parse, if_neg hlen, hfirst, hsecond, if_neg hversion, hcsrc, hext]
  rw [hdata, drop_header, u16At_header, u32At_header_timestamp, u32At_header_ssrc]
  rfl

end RtpPacket

/-! ### Fragments -/

/-- `FuAIndicator`. -/
structure FuAIndicator where
  forbiddenZeroBit : UInt8
  nalRefIdc : UInt8
  deriving DecidableEq, Repr

/-- `FuAHeader`. -/
structure FuAHeader where
  start : Bool
  stop : Bool
  reserved : UInt8
  nalUnitType : UInt8
  deriving DecidableEq, Repr

/-- `parse_fua_indicator`. -/
def parseFuaIndicator (byte : UInt8) : FuAIndicator where
  forbiddenZeroBit := (byte >>> 7) &&& 0x01
  nalRefIdc := (byte >>> 5) &&& 0x03

/-- `parse_fua_header`; the field `end` is `stop` here. -/
def parseFuaHeader (byte : UInt8) : FuAHeader where
  start := ((byte >>> 7) &&& 0x01) != 0
  stop := ((byte >>> 6) &&& 0x01) != 0
  reserved := (byte >>> 5) &&& 0x01
  nalUnitType := byte &&& 0x1F

/-- `is_single_nal`. -/
def isSingleNal (payload : List UInt8) : Bool :=
  match payload with
  | b :: _ => decide (1 ≤ b &&& 0x1F ∧ b &&& 0x1F ≤ 23)
  | [] => false

/-- `is_fua`. -/
def isFua (payload : List UInt8) : Bool :=
  match payload with
  | b :: _ => (b &&& 0x1F) == 28
  | [] => false

/-- The checks of `reassemble_fua` on fragment `i` of `n`. -/
def checkFragment (indicator : FuAIndicator) (header : FuAHeader) (n i : ℕ)
    (pld : List UInt8) : Except String Unit :=
  match pld with
  | indicatorByte :: headerByte :: _ =>
      let fi := parseFuaIndicator indicatorByte
      let fh := parseFuaHeader headerByte
      if fi.nalRefIdc ≠ indicator.nalRefIdc then
        let expected := indicator.nalRefIdc
        let got := fi.nalRefIdc
        .error s!"FU-A fragment {i} nal_ref_idc mismatch: expected {expected}, got {got}"
      else if fh.nalUnitType ≠ header.nalUnitType then
        let expected := header.nalUnitType
        let got := fh.nalUnitType
        .error s!"FU-A fragment {i} nal_unit_type mismatch: expected {expected}, got {got}"
      else if i = 0 ∧ fh.start = false then
        .error "FU-A fragment 0 must have start=1, got start=false"
      else if i = n - 1 ∧ fh.stop = false then
        .error s!"FU-A fragment {i} must have end=1, got end=false"
      else if 0 < i ∧ i < n - 1 ∧ (fh.start = true ∨ fh.stop = true) then
        let start := fh.start
        let stop := fh.stop
        .error s!"FU-A fragment {i}: middle fragment has start={start}, end={stop}"
      else .ok ()
  | short =>
      let len := short.length
      .error s!"FU-A fragment {i} payload too short: {len} bytes"

/-- The loop over the fragments, from number `i` on. -/
def checkFragments (indicator : FuAIndicator) (header : FuAHeader) (n : ℕ) :
    ℕ → List (List UInt8) → Except String Unit
  | _, [] => .ok ()
  | i, pld :: plds =>
      match checkFragment indicator header n i pld with
      | .error e => .error e
      | .ok () => checkFragments indicator header n (i + 1) plds

/-- **`reassemble_fua`.** -/
def reassembleFua (packets : List RtpPacket) : Except String (List UInt8) :=
  match packets with
  | [] => .error "No FU-A packets to reassemble"
  | first :: _ =>
      match first.payload with
      | indicatorByte :: headerByte :: _ =>
          let indicator := parseFuaIndicator indicatorByte
          let header := parseFuaHeader headerByte
          if indicator.forbiddenZeroBit ≠ 0 then
            .error "FU-A forbidden zero bit is set in fragment 0"
          else if header.start = false then
            .error "First FU-A fragment must have the start flag set"
          else
            let nalHeaderByte := (indicator.forbiddenZeroBit <<< 7) ||| (indicator.nalRefIdc <<< 5) |||
              header.nalUnitType
            match checkFragments indicator header packets.length 0 (packets.map (·.payload)) with
            | .error e => .error e
            | .ok () => .ok (nalHeaderByte :: packets.flatMap (·.payload.drop 2))
      | short =>
          let len := short.length
          .error s!"FU-A packet 0 payload too short: {len} bytes"

/-! ### Fragments that belong together -/

/-- The header of a fragment. -/
def fuHeaderByte (isFirst isLast : Bool) (nalType : UInt8) : UInt8 :=
  (if isFirst then 0x80 else 0) ||| (if isLast then 0x40 else 0) ||| nalType

/-- The payloads of the fragments of a NAL unit: the indicator, the header, and a piece of the
data. -/
@[grind =]
def fragmentPayloads (fuIndicator nalType : UInt8) : Bool → List (List UInt8) → List (List UInt8)
  | _, [] => []
  | isFirst, chunk :: chunks =>
      (fuIndicator :: fuHeaderByte isFirst chunks.isEmpty nalType :: chunk) ::
        fragmentPayloads fuIndicator nalType false chunks

/-- What is read of the two bytes in front of a fragment, and put together again, for each header of a
NAL unit. -/
theorem fragmentBytes (nalHeader : UInt8) :
    (∀ isFirst isLast, parseFuaHeader (fuHeaderByte isFirst isLast (nalHeader &&& 0x1F)) =
      ⟨isFirst, isLast, 0, nalHeader &&& 0x1F⟩) ∧
    parseFuaIndicator (28 ||| (nalHeader &&& 0x60)) = ⟨0, (nalHeader >>> 5) &&& 0x03⟩ ∧
    (nalHeader &&& 0x80 = 0 → ((0 : UInt8) <<< 7) ||| (((nalHeader >>> 5) &&& 0x03) <<< 5) |||
      (nalHeader &&& 0x1F) = nalHeader) ∧
    ((28 ||| (nalHeader &&& 0x60)) &&& 0x1F == 28) = true := by
  revert nalHeader
  refine forall_byte ?_
  decide +kernel

/-- The flags and the type in the header of a fragment. -/
theorem parseFuaHeader_flags (isFirst isLast : Bool) (nalHeader : UInt8) :
    parseFuaHeader (fuHeaderByte isFirst isLast (nalHeader &&& 0x1F)) =
      ⟨isFirst, isLast, 0, nalHeader &&& 0x1F⟩ :=
  (fragmentBytes nalHeader).1 isFirst isLast

/-- The indicator keeps the importance of the NAL unit. -/
theorem parseFuaIndicator_nri (nalHeader : UInt8) :
    parseFuaIndicator (28 ||| (nalHeader &&& 0x60)) = ⟨0, (nalHeader >>> 5) &&& 0x03⟩ :=
  (fragmentBytes nalHeader).2.1

/-- The header of a NAL unit is put together again, if its forbidden bit is clear. -/
theorem nalHeader_eq {nalHeader : UInt8} (h : nalHeader &&& 0x80 = 0) :
    ((0 : UInt8) <<< 7) ||| (((nalHeader >>> 5) &&& 0x03) <<< 5) ||| (nalHeader &&& 0x1F) =
      nalHeader :=
  (fragmentBytes nalHeader).2.2.1 h

theorem isFua_indicator (nalHeader : UInt8) (rest : List UInt8) :
    isFua ((28 ||| (nalHeader &&& 0x60)) :: rest) = true :=
  (fragmentBytes nalHeader).2.2.2

/-- Fragments pass the checks, wherever the loop stands. -/
theorem checkFragments_ok (nalHeader : UInt8) (header : FuAHeader)
    (htype : header.nalUnitType = nalHeader &&& 0x1F) {n : ℕ} :
    ∀ (chunks : List (List UInt8)) {i : ℕ}, i + chunks.length = n →
      checkFragments (parseFuaIndicator (28 ||| (nalHeader &&& 0x60))) header n i
        (fragmentPayloads (28 ||| (nalHeader &&& 0x60)) (nalHeader &&& 0x1F) (i == 0) chunks) =
        .ok () := by
  intro chunks
  induction chunks with
  | nil =>
      intro i _
      rfl
  | cons chunk chunks ih =>
      intro i hi
      rw [List.length_cons] at hi
      have hlast : chunks.isEmpty = true ↔ i = n - 1 := by
        rw [List.isEmpty_iff, ← List.length_eq_zero_iff]
        omega
      have hcheck : checkFragment (parseFuaIndicator (28 ||| (nalHeader &&& 0x60))) header n i
          ((28 ||| (nalHeader &&& 0x60)) ::
            fuHeaderByte (i == 0) chunks.isEmpty (nalHeader &&& 0x1F) :: chunk) = .ok () := by
        -- the three checks of the flags
        have hstart : ¬ (i = 0 ∧ (i == 0) = false) := by simp
        have hend : ¬ (i = n - 1 ∧ chunks.isEmpty = false) := by
          rintro ⟨heq, hne⟩
          rw [hlast.2 heq] at hne
          cases hne
        have hmiddle : ¬ (0 < i ∧ i < n - 1 ∧ ((i == 0) = true ∨ chunks.isEmpty = true)) := by
          rintro ⟨hpos, hlt, hzero | hempty⟩
          · rw [beq_iff_eq] at hzero
            omega
          · have := hlast.1 hempty
            omega
        simp only [checkFragment, parseFuaHeader_flags, htype, ne_eq, not_true_eq_false, if_false,
          if_neg hstart, if_neg hend, if_neg hmiddle]
      have hrest := ih (i := i + 1) (by omega)
      rw [fragmentPayloads, checkFragments, hcheck]
      exact hrest

theorem length_fragmentPayloads (fuIndicator nalType : UInt8) :
    ∀ (isFirst : Bool) (chunks : List (List UInt8)),
      (fragmentPayloads fuIndicator nalType isFirst chunks).length = chunks.length := by
  intro isFirst chunks
  induction chunks generalizing isFirst with
  | nil => rfl
  | cons chunk chunks ih => rw [fragmentPayloads, List.length_cons, ih, List.length_cons]

theorem flatMap_drop_fragmentPayloads (fuIndicator nalType : UInt8) :
    ∀ (isFirst : Bool) (chunks : List (List UInt8)),
      (fragmentPayloads fuIndicator nalType isFirst chunks).flatMap (·.drop 2) =
        chunks.flatten := by
  intro isFirst chunks
  induction chunks generalizing isFirst with
  | nil => rfl
  | cons chunk chunks ih =>
      rw [fragmentPayloads, List.flatMap_cons, ih, List.flatten_cons]
      rfl

/-- **Fragments are put together again**: the header of the NAL unit and the pieces of its data. -/
theorem reassembleFua_fragments {nalHeader : UInt8} (h : nalHeader &&& 0x80 = 0)
    {chunks : List (List UInt8)} (hne : chunks ≠ []) {packets : List RtpPacket}
    (hpayload : packets.map (·.payload) =
      fragmentPayloads (28 ||| (nalHeader &&& 0x60)) (nalHeader &&& 0x1F) true chunks) :
    reassembleFua packets = .ok (nalHeader :: chunks.flatten) := by
  obtain ⟨chunk, chunks, rfl⟩ := List.exists_cons_of_ne_nil hne
  cases packets with
  | nil => cases hpayload
  | cons first packets =>
      have hfirst := (List.cons.inj hpayload).1
      have hlen : (first :: packets).length = (chunk :: chunks).length := by
        rw [← length_fragmentPayloads (28 ||| (nalHeader &&& 0x60)) (nalHeader &&& 0x1F) true,
          ← hpayload, List.length_map]
      have hchecks := checkFragments_ok nalHeader ⟨true, chunks.isEmpty, 0, nalHeader &&& 0x1F⟩ rfl
        (chunk :: chunks) (i := 0) (Nat.zero_add _)
      have hdata : (first :: packets).flatMap (·.payload.drop 2) = (chunk :: chunks).flatten := by
        rw [← flatMap_drop_fragmentPayloads (28 ||| (nalHeader &&& 0x60)) (nalHeader &&& 0x1F) true,
          ← hpayload, List.flatMap_map]
      rw [show ((0 : ℕ) == 0) = true from rfl, ← hpayload, ← hlen] at hchecks
      simp only [reassembleFua, hfirst, parseFuaIndicator_nri, parseFuaHeader_flags, ne_eq,
        not_true_eq_false, if_false, Bool.true_eq_false, hdata, nalHeader_eq h]
      rw [parseFuaIndicator_nri] at hchecks
      rw [hchecks]

end Rtp

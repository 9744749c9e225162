/-
**RTP packets as bytes.**

`RtpPacket::to_bytes` of `crates/protocols/src/rtp.rs` beside `RtpPacket::parse`.  The parser accepts
exactly the byte strings that are a front, which `to_bytes` writes for some well-formed packet, and
behind it the payload with its padding.  Without padding the two undo each other.  With padding they
never do: the parser strips it and leaves the flag set, `to_bytes` writes the flag and no padding,
and the last byte of the payload is then taken for its length.

Main definitions:

* `Rtp.RtpPacket.toBytes`, `Rtp.RtpPacket.front` — the bytes of a packet, and those before its
  payload;
* `Rtp.RtpPacket.WellFormed` — the counts and flags of a packet fit the data they are about.

Main results:

* `Rtp.RtpPacket.parse_eq_ok_iff` — **what the parser accepts**;
* `Rtp.RtpPacket.toBytes_roundTrip` — without padding, both directions of the round trip;
* `Rtp.RtpPacket.parse_toBytes_ne` — with padding there is none.
-/

import MibeeEye.RtpPacket

set_option relaxedAutoImplicit false
set_option autoImplicit false

namespace Rtp

open Wire

/-! ### Serialization -/

/-- The first byte of the header. -/
def RtpHeaderFlags.firstByte (flags : RtpHeaderFlags) : UInt8 :=
  (flags.version <<< 6) ||| (flags.padding.toUInt8 <<< 5) ||| (flags.extension.toUInt8 <<< 4) |||
    (flags.csrcCount &&& 0x0F)

/-- The second byte of the header. -/
def RtpHeaderFlags.secondByte (flags : RtpHeaderFlags) : UInt8 :=
  (flags.marker.toUInt8 <<< 7) ||| (flags.payloadType &&& 0x7F)

namespace RtpPacket

/-- The contributing sources. -/
def csrcBytes (csrcList : List UInt32) : List UInt8 := csrcList.flatMap fun csrc => beBytes 4 csrc.toNat

/-- The extension: profile, length in words, and the data, padded with zeros to whole words. -/
def extensionBytes (extension : Bool) (extensionProfile : Option UInt16)
    (extensionData : List UInt8) : List UInt8 :=
  if extension then
    let extDataLen := (extensionData.length + 3) / 4 * 4
    let profile := extensionProfile.getD 0
    beBytes 2 profile.toNat ++ beBytes 2 (extDataLen / 4) ++ extensionData ++
      List.replicate (extDataLen - extensionData.length) 0
  else []

/-- The bytes of a packet before its payload. -/
def front (p : RtpPacket) : List UInt8 :=
  header p.flags.firstByte p.flags.secondByte p.sequenceNumber p.timestamp p.ssrc ++
    csrcBytes p.csrcList ++ extensionBytes p.flags.extension p.extensionProfile p.extensionData

/-- **`RtpPacket::to_bytes`.** -/
def toBytes (p : RtpPacket) : List UInt8 := p.front ++ p.payload

/-- **The flags and counts of a packet fit its data.** -/
structure WellFormed (p : RtpPacket) : Prop where
  version : p.flags.version = rtpVersion
  csrcCount : p.flags.csrcCount.toNat = p.csrcList.length
  csrcList_le : p.csrcList.length ≤ 15
  payloadType : p.flags.payloadType < 128
  extension : p.flags.extension = p.extensionProfile.isSome
  words : 4 ∣ p.extensionData.length
  length_le : p.extensionData.length ≤ 4 * 65535
  noExtension : p.extensionProfile = none → p.extensionData = []

/-! ### The bits of the flags -/

/-- What is read of the two bytes, and put together again, for each byte. -/
theorem flagBytes (b : UInt8) :
    (b.toNat ≤ 15 → ∀ padding extension : Bool,
      let first := (rtpVersion <<< 6) ||| (padding.toUInt8 <<< 5) ||| (extension.toUInt8 <<< 4) |||
        (b &&& 0x0F)
      (first >>> 6) &&& 0x03 = rtpVersion ∧ (((first >>> 5) &&& 0x01) != 0) = padding ∧
        (((first >>> 4) &&& 0x01) != 0) = extension ∧ first &&& 0x0F = b) ∧
    (b < 128 → ∀ marker : Bool,
      let second := (marker.toUInt8 <<< 7) ||| (b &&& 0x7F)
      (((second >>> 7) &&& 0x01) != 0) = marker ∧ second &&& 0x7F = b) ∧
    ((b >>> 6) &&& 0x03 = rtpVersion →
      (rtpVersion <<< 6) ||| ((((b >>> 5) &&& 0x01) != 0).toUInt8 <<< 5) |||
        ((((b >>> 4) &&& 0x01) != 0).toUInt8 <<< 4) ||| ((b &&& 0x0F) &&& 0x0F) = b) ∧
    ((((b >>> 7) &&& 0x01) != 0).toUInt8 <<< 7) ||| ((b &&& 0x7F) &&& 0x7F) = b := by
  revert b
  refine forall_byte ?_
  decide +kernel

/-- The flags are read back from the two bytes. -/
theorem flags_firstByte {version : UInt8} (csrcCount : UInt8) (padding extension : Bool)
    (hversion : version = rtpVersion) (hcount : csrcCount.toNat ≤ 15) :
    let b := (version <<< 6) ||| (padding.toUInt8 <<< 5) ||| (extension.toUInt8 <<< 4) |||
      (csrcCount &&& 0x0F)
    (b >>> 6) &&& 0x03 = version ∧ (((b >>> 5) &&& 0x01) != 0) = padding ∧
      (((b >>> 4) &&& 0x01) != 0) = extension ∧ b &&& 0x0F = csrcCount := by
  subst hversion
  exact (flagBytes csrcCount).1 hcount padding extension

theorem flags_secondByte (payloadType : UInt8) (marker : Bool) (h : payloadType < 128) :
    let b := (marker.toUInt8 <<< 7) ||| (payloadType &&& 0x7F)
    (((b >>> 7) &&& 0x01) != 0) = marker ∧ b &&& 0x7F = payloadType :=
  (flagBytes payloadType).2.1 h marker

/-- The two bytes are put together again from what is read of them. -/
theorem firstByte_eq (b : UInt8) (h : (b >>> 6) &&& 0x03 = rtpVersion) :
    (rtpVersion <<< 6) ||| ((((b >>> 5) &&& 0x01) != 0).toUInt8 <<< 5) |||
      ((((b >>> 4) &&& 0x01) != 0).toUInt8 <<< 4) ||| ((b &&& 0x0F) &&& 0x0F) = b :=
  (flagBytes b).2.2.1 h

theorem secondByte_eq (b : UInt8) :
    ((((b >>> 7) &&& 0x01) != 0).toUInt8 <<< 7) ||| ((b &&& 0x7F) &&& 0x7F) = b :=
  (flagBytes b).2.2.2

theorem and_0x0F_le (b : UInt8) : (b &&& 0x0F).toNat ≤ 15 := by
  rw [toNat_and_mask (k := 4) rfl]
  omega

theorem and_0x7F_lt (b : UInt8) : b &&& 0x7F < 128 := by
  rw [UInt8.lt_iff_toNat_lt, toNat_and_mask (k := 7) rfl]
  exact Nat.mod_lt _ (by decide)

/-! ### What the parser accepts -/

section Parts

variable {data : List UInt8}

theorem csrcBytes_cons (csrc : UInt32) (csrcList : List UInt32) :
    csrcBytes (csrc :: csrcList) = beBytes 4 csrc.toNat ++ csrcBytes csrcList :=
  List.flatMap_cons

@[simp] theorem length_csrcBytes (csrcList : List UInt32) :
    (csrcBytes csrcList).length = 4 * csrcList.length := by
  induction csrcList with
  | nil => rfl
  | cons csrc csrcList ih =>
      rw [csrcBytes_cons, List.length_append, length_beBytes, ih, List.length_cons]
      omega

/-- Whole words need no zeros behind them. -/
theorem extensionBytes_some {extensionData : List UInt8} (profile : UInt16)
    (h : 4 ∣ extensionData.length) :
    extensionBytes true (some profile) extensionData =
      beBytes 2 profile.toNat ++ (beBytes 2 (extensionData.length / 4) ++ extensionData) := by
  have hround : (extensionData.length + 3) / 4 * 4 = extensionData.length := by omega
  simp only [extensionBytes, if_true, hround, Nat.sub_self, List.replicate_zero, List.append_nil,
    Option.getD_some, List.append_assoc]

/-- The first four bytes from a position, as the number read from them. -/
theorem drop_eq_u32At {i : ℕ} (h : i + 4 ≤ data.length) :
    data.drop i = beBytes 4 (u32At data i).toNat ++ data.drop (i + 4) := by
  have hlen : (slice data i (i + 4)).length = 4 := by
    rw [slice, List.length_take, List.length_drop]
    omega
  have hlt : ofBe (slice data i (i + 4)) < 2 ^ 32 := by
    have := ofBe_lt (slice data i (i + 4))
    rwa [hlen] at this
  rw [u32At, UInt32.toNat_ofNat_of_lt' hlt, beBytes_ofBe hlen, slice, Nat.add_sub_cancel_left,
    ← List.drop_drop, List.take_append_drop]

theorem u32At_eq {i : ℕ} {n : UInt32} {rest : List UInt8}
    (h : data.drop i = beBytes 4 n.toNat ++ rest) : u32At data i = n := by
  have hslice : slice data i (i + 4) = beBytes 4 n.toNat := by
    rw [slice, Nat.add_sub_cancel_left, h, List.take_left' (length_beBytes 4 _)]
  rw [u32At, hslice]
  exact ofNat_ofBe_beBytes_four n

/-- The same for two bytes. -/
theorem drop_eq_u16At {i : ℕ} (h : i + 2 ≤ data.length) :
    data.drop i = beBytes 2 (u16At data i).toNat ++ data.drop (i + 2) := by
  have hlen : (slice data i (i + 2)).length = 2 := by
    rw [slice, List.length_take, List.length_drop]
    omega
  have hlt : ofBe (slice data i (i + 2)) < 2 ^ 16 := by
    have := ofBe_lt (slice data i (i + 2))
    rwa [hlen] at this
  rw [u16At, UInt16.toNat_ofNat_of_lt' hlt, beBytes_ofBe hlen, slice, Nat.add_sub_cancel_left,
    ← List.drop_drop, List.take_append_drop]

theorem u16At_eq {i : ℕ} {n : UInt16} {rest : List UInt8}
    (h : data.drop i = beBytes 2 n.toNat ++ rest) : u16At data i = n := by
  have hslice : slice data i (i + 2) = beBytes 2 n.toNat := by
    rw [slice, Nat.add_sub_cancel_left, h, List.take_left' (length_beBytes 2 _)]
  rw [u16At, hslice]
  exact ofNat_ofBe_beBytes_two n

/-- The contributing sources that are read stand there. -/
theorem drop_of_parseCsrcList {n offset offset' : ℕ} {csrcList : List UInt32}
    (h : parseCsrcList data n offset = .ok (csrcList, offset')) :
    csrcList.length = n ∧ data.drop offset = csrcBytes csrcList ++ data.drop offset' := by
  induction n generalizing offset csrcList with
  | zero =>
      cases h
      exact ⟨rfl, rfl⟩
  | succ n ih =>
      rw [parseCsrcList] at h
      split at h
      · cases h
      · rename_i hlong
        cases hrest : parseCsrcList data n (offset + 4) with
        | error e =>
            rw [hrest] at h
            cases h
        | ok r =>
            rw [hrest] at h
            cases h
            obtain ⟨hlen, hdrop⟩ := ih hrest
            refine ⟨by rw [List.length_cons, hlen], ?_⟩
            rw [drop_eq_u32At (by omega), hdrop, csrcBytes_cons, List.append_assoc]

/-- The contributing sources that stand there are read. -/
theorem parseCsrcList_of_drop {offset : ℕ} {csrcList : List UInt32} {rest : List UInt8}
    (h : data.drop offset = csrcBytes csrcList ++ rest) :
    parseCsrcList data csrcList.length offset =
      .ok (csrcList, offset + (csrcBytes csrcList).length) := by
  induction csrcList generalizing offset with
  | nil => rfl
  | cons csrc csrcList ih =>
      rw [csrcBytes_cons, List.append_assoc] at h
      have hlen := congrArg List.length h
      rw [List.length_drop, List.length_append, length_beBytes] at hlen
      have hrest : data.drop (offset + 4) = csrcBytes csrcList ++ rest := by
        rw [← List.drop_drop, h, List.drop_left' (length_beBytes 4 _)]
      rw [List.length_cons, parseCsrcList, if_neg (by omega), ih hrest, u32At_eq h]
      have hnext : offset + 4 + 4 * csrcList.length = offset + 4 * (csrcList.length + 1) := by omega
      simp only [Except.map, length_csrcBytes, List.length_cons, hnext]

/-- The extension that is read stands there. -/
theorem drop_of_parseExtension {extension : Bool} {offset offset' : ℕ} {profile : Option UInt16}
    {extensionData : List UInt8}
    (h : parseExtension data extension offset = .ok (profile, extensionData, offset')) :
    data.drop offset = extensionBytes extension profile extensionData ++ data.drop offset' ∧
      extension = profile.isSome ∧ 4 ∣ extensionData.length ∧
      extensionData.length ≤ 4 * 65535 ∧ (profile = none → extensionData = []) := by
  unfold parseExtension at h
  split at h
  · rename_i hextension
    split at h
    · cases h
    · dsimp only at h
      split at h
      · cases h
      · rename_i hfour hfits
        cases h
        -- the number of words, and the data
        have hwords := (u16At data (offset + 2)).toNat_lt
        set words := (u16At data (offset + 2)).toNat with hwordsdef
        have hlen : (slice data (offset + 4) (offset + 4 + words * 4)).length = 4 * words := by
          rw [slice, List.length_take, List.length_drop]
          omega
        refine ⟨?_, hextension, ⟨words, hlen⟩, by omega, fun hnone => by cases hnone⟩
        have hdata : data.drop (offset + 4) = slice data (offset + 4) (offset + 4 + words * 4) ++
            data.drop (offset + 4 + words * 4) := by
          rw [slice, Nat.add_sub_cancel_left, ← @List.drop_drop _ (words * 4) (offset + 4),
            List.take_append_drop]
        rw [hextension, extensionBytes_some _ ⟨words, hlen⟩, hlen,
          Nat.mul_div_cancel_left _ (by omega), drop_eq_u16At (by omega),
          @drop_eq_u16At data (offset + 2) (by omega), ← hwordsdef, hdata, List.append_assoc,
          List.append_assoc]
  · rename_i hextension
    cases h
    refine ⟨?_, by simpa using hextension, ⟨0, rfl⟩, by simp, fun _ => rfl⟩
    rw [extensionBytes, if_neg hextension]
    rfl

/-- The extension that stands there is read. -/
theorem parseExtension_of_drop {profile : Option UInt16} {offset : ℕ}
    {extensionData rest : List UInt8} (hwords : 4 ∣ extensionData.length)
    (hle : extensionData.length ≤ 4 * 65535) (hnone : profile = none → extensionData = [])
    (h : data.drop offset = extensionBytes profile.isSome profile extensionData ++ rest) :
    parseExtension data profile.isSome offset =
      .ok (profile, extensionData,
        offset + (extensionBytes profile.isSome profile extensionData).length) := by
  cases profile with
  | none =>
      rw [hnone rfl]
      rfl
  | some profile =>
      rw [Option.isSome_some, extensionBytes_some profile hwords] at h ⊢
      rw [List.append_assoc, List.append_assoc] at h
      have hlen := congrArg List.length h
      simp only [List.length_drop, List.length_append, length_beBytes] at hlen
      have hnext : data.drop (offset + 2) =
          beBytes 2 (extensionData.length / 4) ++ (extensionData ++ rest) := by
        rw [← List.drop_drop, h, List.drop_left' (length_beBytes 2 _)]
      have hdata : data.drop (offset + 4) = extensionData ++ rest := by
        rw [show offset + 4 = offset + 2 + 2 from rfl, ← List.drop_drop, hnext,
          List.drop_left' (length_beBytes 2 _)]
      have hlt : extensionData.length / 4 < 2 ^ 16 := by omega
      have hcount : (u16At data (offset + 2)).toNat = extensionData.length / 4 := by
        rw [@u16At_eq data (offset + 2) (UInt16.ofNat (extensionData.length / 4))
          (extensionData ++ rest) (by rw [UInt16.toNat_ofNat_of_lt' hlt, hnext]),
          UInt16.toNat_ofNat_of_lt' hlt]
      have hmul : extensionData.length / 4 * 4 = extensionData.length := Nat.div_mul_cancel hwords
      rw [parseExtension, if_pos rfl, if_neg (by omega)]
      dsimp only
      rw [hcount, hmul, if_neg (by omega), u16At_eq h, slice, Nat.add_sub_cancel_left, hdata,
        List.take_left]
      congr 3
      simp only [List.length_append, length_beBytes]
      omega

end Parts

/-- At least twelve bytes are a fixed header and the rest. -/
theorem eq_header {data : List UInt8} (h : rtpHeaderSize ≤ data.length) :
    data = header (data.getD 0 0) (data.getD 1 0) (u16At data 2) (u32At data 4) (u32At data 8) ++
      data.drop rtpHeaderSize := by
  rw [rtpHeaderSize] at h ⊢
  have htwo : data = [data.getD 0 0, data.getD 1 0] ++ data.drop 2 := by
    obtain ⟨a, b, rest, rfl⟩ : ∃ a b rest, data = a :: b :: rest := by
      rcases data with _ | ⟨a, _ | ⟨b, rest⟩⟩
      · simp at h
      · simp at h
      · exact ⟨a, b, rest, rfl⟩
    rfl
  have hseq := @drop_eq_u16At data 2 (by omega)
  have hts := @drop_eq_u32At data 4 (by omega)
  have hssrc := @drop_eq_u32At data 8 (by omega)
  rw [header, List.append_assoc, List.append_assoc, List.append_assoc, ← hssrc, ← hts, ← hseq]
  exact htwo

/-- **What is made of the front of a well-formed packet**: the packet, with what is left of the
bytes behind it once the padding is stripped. -/
theorem parse_front_append {p : RtpPacket} (hp : p.WellFormed) (raw : List UInt8) :
    parse (p.front ++ raw) =
      (parsePayload p.flags.padding raw).map fun payload => { p with payload } := by
  generalize hdata : p.front ++ raw = data
  replace hdata := hdata.symm
  rw [front, hp.extension, List.append_assoc, List.append_assoc] at hdata
  -- the offsets behind the header, the contributing sources and the extension
  have hdrop : data.drop rtpHeaderSize = csrcBytes p.csrcList ++
      (extensionBytes p.extensionProfile.isSome p.extensionProfile p.extensionData ++ raw) := by
    rw [hdata, drop_header]
  have hdrop' : data.drop (rtpHeaderSize + (csrcBytes p.csrcList).length) =
      extensionBytes p.extensionProfile.isSome p.extensionProfile p.extensionData ++ raw := by
    rw [← List.drop_drop, hdrop, List.drop_left]
  have hdrop'' := congrArg (List.drop
    (extensionBytes p.extensionProfile.isSome p.extensionProfile p.extensionData).length) hdrop'
  rw [List.drop_drop, List.drop_left] at hdrop''
  have hcsrc := parseCsrcList_of_drop hdrop
  have hextension := parseExtension_of_drop hp.words hp.length_le hp.noExtension hdrop'
  have hlen : ¬ data.length < rtpHeaderSize := by
    rw [hdata, List.length_append, length_header]
    omega
  have hfirst : data.getD 0 0 = p.flags.firstByte := by rw [hdata]; rfl
  have hsecond : data.getD 1 0 = p.flags.secondByte := by rw [hdata]; rfl
  have hcount : p.flags.csrcCount.toNat ≤ 15 := by rw [hp.csrcCount]; exact hp.csrcList_le
  obtain ⟨hversion, hpadding, hext, hcsrcCount⟩ :=
    flags_firstByte p.flags.csrcCount p.flags.padding p.flags.extension hp.version hcount
  obtain ⟨hmarker, htype⟩ := flags_secondByte p.flags.payloadType p.flags.marker hp.payloadType
  rw [← RtpHeaderFlags.firstByte] at hversion hpadding hext hcsrcCount
  rw [← RtpHeaderFlags.secondByte] at hmarker htype
  have hseq : u16At data 2 = p.sequenceNumber := by rw [hdata, u16At_header]
  have hts : u32At data 4 = p.timestamp := by rw [hdata, u32At_header_timestamp]
  have hssrc : u32At data 8 = p.ssrc := by rw [hdata, u32At_header_ssrc]
  rw [parse, if_neg hlen]
  dsimp only
  rw [hfirst, hsecond, hversion, hpadding, hext, hcsrcCount, hmarker, htype, hseq, hts, hssrc,
    if_neg (not_not.mpr hp.version), hp.csrcCount, hcsrc]
  dsimp only
  rw [hp.extension, hextension]
  dsimp only
  rw [hdrop'', ← hp.extension]
  cases parsePayload p.flags.padding raw with
  | error e => rfl
  | ok payload => rfl

/-- **What the parser accepts**: the front of a well-formed packet, and a payload whose padding, if
the flag says there is some, can be stripped. -/
theorem parse_eq_ok_iff {data : List UInt8} {p : RtpPacket} :
    parse data = .ok p ↔ p.WellFormed ∧
      ∃ raw, data = p.front ++ raw ∧ parsePayload p.flags.padding raw = .ok p.payload := by
  constructor
  · intro h
    rw [parse] at h
    dsimp only at h
    split at h
    · cases h
    rename_i hlen
    split at h
    · cases h
    rename_i hversion
    rw [not_not] at hversion
    split at h
    · cases h
    rename_i csrcList offset hcsrc
    split at h
    · cases h
    rename_i profile extensionData offset' hextension
    split at h
    · cases h
    rename_i payload hpayload
    cases h
    obtain ⟨hcount, hcsrcs⟩ := drop_of_parseCsrcList hcsrc
    obtain ⟨hext, hsome, hwords, hle, hnone⟩ := drop_of_parseExtension hextension
    refine ⟨⟨hversion, hcount.symm, hcount ▸ and_0x0F_le _, and_0x7F_lt _, hsome, hwords, hle,
      hnone⟩, data.drop offset', ?_, hpayload⟩
    rw [front, RtpHeaderFlags.firstByte, RtpHeaderFlags.secondByte]
    dsimp only
    rw [hversion, firstByte_eq _ hversion, secondByte_eq, List.append_assoc, List.append_assoc,
      ← hext, ← hcsrcs]
    exact eq_header (by omega)
  · rintro ⟨hp, raw, rfl, hpayload⟩
    rw [parse_front_append hp, hpayload]
    rfl

/-! ### Without padding -/

/-- A payload without padding is all there is. -/
theorem parsePayload_false (raw : List UInt8) : parsePayload false raw = .ok raw := rfl

/-- **Without padding, packets are written and read back, and bytes are read and written back.** -/
theorem toBytes_roundTrip :
    (∀ p : RtpPacket, p.WellFormed → p.flags.padding = false → parse p.toBytes = .ok p) ∧
      ∀ (data : List UInt8) (p : RtpPacket), parse data = .ok p → p.flags.padding = false →
        p.toBytes = data := by
  constructor
  · intro p hp hpadding
    refine parse_eq_ok_iff.mpr ⟨hp, p.payload, rfl, ?_⟩
    rw [hpadding, parsePayload_false]
  · intro data p h hpadding
    obtain ⟨-, raw, hdata, hpayload⟩ := parse_eq_ok_iff.mp h
    rw [hpadding, parsePayload_false] at hpayload
    rw [toBytes, hdata, Except.ok.inj hpayload]

/-- Two contributing sources and an extension of one word. -/
def extended : RtpPacket where
  flags :=
    { version := 2, padding := false, extension := true, csrcCount := 2, marker := true
      payloadType := 96 }
  sequenceNumber := 0xFFFF
  timestamp := 90000
  ssrc := 0x12345678
  csrcList := [1, 2]
  extensionProfile := some 0xBEDE
  extensionData := [0x10, 0xFF, 0x00, 0x00]
  payload := [0x41, 0x9A]

theorem wellFormed_extended : extended.WellFormed :=
  ⟨rfl, rfl, by decide, by decide, rfl, by decide, by decide, by decide⟩

/-- The same as bytes. -/
def extendedBytes : List UInt8 :=
  [0x92, 0xE0, 0xFF, 0xFF, 0x00, 0x01, 0x5F, 0x90, 0x12, 0x34, 0x56, 0x78,
    0x00, 0x00, 0x00, 0x01, 0x00, 0x00, 0x00, 0x02,
    0xBE, 0xDE, 0x00, 0x01, 0x10, 0xFF, 0x00, 0x00, 0x41, 0x9A]

theorem toBytes_roundTrip_extended :
    parse extended.toBytes = .ok extended ∧ extended.toBytes = extendedBytes :=
  ⟨toBytes_roundTrip.1 extended wellFormed_extended rfl,
    toBytes_roundTrip.2 extendedBytes extended (by rfl) rfl⟩

/-! ### With padding -/

/-- Padding takes at least one byte. -/
theorem length_lt_of_parsePayload {raw payload : List UInt8}
    (h : parsePayload true raw = .ok payload) : payload.length < raw.length := by
  rw [parsePayload, if_pos rfl] at h
  split at h
  · cases h
  · dsimp only at h
    split at h
    · cases h
    · cases h
      rw [List.length_take]
      omega

/-- What is made of a packet with the padding flag that was written: the last byte of its payload is
taken for the length of padding that is not there. -/
theorem parse_toBytes {p : RtpPacket} (hp : p.WellFormed) :
    parse p.toBytes =
      (parsePayload p.flags.padding p.payload).map fun payload => { p with payload } :=
  parse_front_append hp p.payload

/-- **A packet that was read with padding is never read back.** -/
theorem parse_toBytes_ne (data : List UInt8) (p : RtpPacket) (h : parse data = .ok p)
    (hpadding : p.flags.padding = true) : parse p.toBytes ≠ .ok p := by
  rw [parse_toBytes (parse_eq_ok_iff.mp h).1, hpadding]
  intro hback
  cases hpayload : parsePayload true p.payload with
  | error e =>
      rw [hpayload] at hback
      cases hback
  | ok payload =>
      have hlen := length_lt_of_parsePayload hpayload
      rw [hpayload] at hback
      have hsame : payload = p.payload := congrArg RtpPacket.payload (Except.ok.inj hback)
      rw [hsame] at hlen
      exact absurd hlen (lt_irrefl _)

/-- Four bytes of payload and a byte of padding. -/
def padded (last : UInt8) : List UInt8 :=
  header 0xA0 0x00 1 0 1 ++ [0xDE, 0xAD, 0xBE, last, 0x01]

/-- The packet of `padded`: the padding is gone, and the flag is set. -/
def stripped (last : UInt8) : RtpPacket where
  flags :=
    { version := 2, padding := true, extension := false, csrcCount := 0, marker := false
      payloadType := 0 }
  sequenceNumber := 1
  timestamp := 0
  ssrc := 1
  csrcList := []
  extensionProfile := none
  extensionData := []
  payload := [0xDE, 0xAD, 0xBE, last]

/-- A payload that ends with `EF` is refused. -/
theorem parse_toBytes_ne_refused : parse (stripped 0xEF).toBytes ≠ .ok (stripped 0xEF) :=
  parse_toBytes_ne (padded 0xEF) (stripped 0xEF) rfl rfl

/-- A payload that ends with `02` is read as one that is two bytes shorter. -/
theorem padded_truncated :
    parse (padded 0x02) = .ok (stripped 0x02) ∧
      parse (stripped 0x02).toBytes = .ok { stripped 0x02 with payload := [0xDE, 0xAD] } ∧
      parse (stripped 0x02).toBytes ≠ .ok (stripped 0x02) := by
  have hback : parse (stripped 0x02).toBytes =
      .ok { stripped 0x02 with payload := [0xDE, 0xAD] } := rfl
  refine ⟨rfl, hback, ?_⟩
  rw [hback]
  decide

end RtpPacket

end Rtp

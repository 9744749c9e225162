/-
**Transport headers and interleaved frames of the RTSP server.**

`crates/protocols/src/rtsp_server/framing.rs`: the `Transport` header of `SETUP`, the lookup of a
header, and the frames in which RTP and RTCP packets travel on the connection of the requests; and
the sender reports of `crates/protocols/src/rtcp.rs`.

Main definitions:

* `RtspServer.TransportInfo`, `RtspServer.TransportInfo.parse`,
  `RtspServer.TransportInfo.serialize`;
* `RtspServer.getHeader` — a header by its name, in any case;
* `RtspServer.buildInterleavedFrame` — `$`, the channel, the length, the data;
* `RtspServer.buildSenderReport` — the RTCP packet that is sent every five seconds.

Main results:

* `RtspServer.length_buildSenderReport` — a report has 28 bytes, so its frame is always built
  (`RtspServer.buildInterleavedFrame_senderReport`).
-/

import MibeeEye.ByteOrder
import MibeeEye.Md5
import MibeeEye.Text

set_option relaxedAutoImplicit false
set_option autoImplicit false

namespace RtspServer

open Text Wire

/-! ### Transport -/

/-- `TransportInfo`. -/
structure TransportInfo where
  interleaved : Option (UInt8 × UInt8) := none
  clientPort : Option (UInt16 × UInt16) := none
  serverPort : Option (UInt16 × UInt16) := none
  sessionId : String := ""
  ssrc : Option UInt32 := none
  mode : Option String := none
  deriving DecidableEq, Repr

/-- Two numbers below `bound` with a dash between them. -/
def parsePair (bound : ℕ) (value : List Char) : Option (ℕ × ℕ) :=
  match value.splitOn '-' with
  | [first, second] => do
      let a ← parseUnsigned 10 bound first
      let b ← parseUnsigned 10 bound second
      return (a, b)
  | _ => none

/-- A pair of channels. -/
def parseChannels (value : List Char) : Option (UInt8 × UInt8) :=
  (parsePair 256 value).map fun p => (UInt8.ofNat p.1, UInt8.ofNat p.2)

/-- A pair of ports. -/
def parsePorts (value : List Char) : Option (UInt16 × UInt16) :=
  (parsePair 65536 value).map fun p => (UInt16.ofNat p.1, UInt16.ofNat p.2)

/-- `parse_ssrc`: decimal if possible, else hexadecimal. -/
def parseSsrc (value : List Char) : Option UInt32 :=
  let value := trim value
  (parseUnsigned 10 (2 ^ 32) value <|>
    parseUnsigned 16 (2 ^ 32) (trimStartMatches "0x".toList value)).map UInt32.ofNat

/-- The loop body of `TransportInfo::parse`.  The key is compared in lower case; its letters are
ASCII and none of them is the lower case of another character. -/
def TransportInfo.parseParam (t : TransportInfo) (param : List Char) : TransportInfo :=
  match splitOnce (· == '=') (trim param) with
  | none => t
  | some (key, value) =>
      let key := String.ofList ((trim key).map Char.toLower)
      let value := trim value
      -- a pair that does not parse leaves what was there
      if key = "interleaved" then { t with interleaved := parseChannels value <|> t.interleaved }
      else if key = "client_port" then { t with clientPort := parsePorts value <|> t.clientPort }
      else if key = "server_port" then { t with serverPort := parsePorts value <|> t.serverPort }
      else if key = "ssrc" then { t with ssrc := parseSsrc value }
      else if key = "mode" then { t with mode := some (String.ofList value) }
      else t

/-- `TransportInfo::parse`, which never fails. -/
def TransportInfo.parse (header : String) : TransportInfo :=
  (header.toList.splitOn ';').foldl TransportInfo.parseParam {}

/-- The eight hexadecimal digits of a word. -/
def hex8 (n : UInt32) : String := Md5.hexEncode (beBytes 4 n.toNat)

/-- `TransportInfo::serialize`. -/
def TransportInfo.serialize (t : TransportInfo) : String :=
  String.intercalate ";" (["RTP/AVP/TCP"] ++
    (t.interleaved.map fun p => s!"interleaved={p.1}-{p.2}").toList ++
    (t.clientPort.map fun p => s!"client_port={p.1}-{p.2}").toList ++
    (t.serverPort.map fun p => s!"server_port={p.1}-{p.2}").toList ++
    (t.ssrc.map fun ssrc => s!"ssrc=0x{hex8 ssrc}").toList ++
    (t.mode.map fun mode => s!"mode={mode}").toList)

/-- `get_header`: the first header of that name. -/
def getHeader (headers : List (String × String)) (name : String) : Option String :=
  (headers.find? fun h => eqIgnoreAsciiCase h.1 name).map Prod.snd

/-! ### Interleaved frames -/

/-- `build_interleaved_frame`. -/
def buildInterleavedFrame (channel : UInt8) (data : List UInt8) : Except String (List UInt8) :=
  if 65535 < data.length then
    .error s!"RTP data too large for interleaved transport: {data.length} bytes"
  else .ok (0x24 :: channel :: beBytes 2 data.length ++ data)

/-! ### Sender reports -/

/-- `ntp_to_rtp`. -/
def ntpToRtp (ntp : UInt64) (clockRate : UInt32) : UInt32 :=
  let secs := ntp.toNat / 2 ^ 32
  let frac := ntp.toNat % 2 ^ 32
  UInt32.ofNat (secs * clockRate.toNat % 2 ^ 64 + frac * clockRate.toNat / 2 ^ 32)

/-- `build_sender_report`. -/
def buildSenderReport (ssrc : UInt32) (ntpTimestamp : UInt64)
    (rtpTimestamp packetCount octetCount : UInt32) : List UInt8 :=
  [0x80, 200] ++ beBytes 2 6 ++ beBytes 4 ssrc.toNat ++ beBytes 8 ntpTimestamp.toNat ++
    beBytes 4 rtpTimestamp.toNat ++ beBytes 4 packetCount.toNat ++ beBytes 4 octetCount.toNat

theorem length_buildSenderReport (ssrc : UInt32) (ntp : UInt64) (rtp packets octets : UInt32) :
    (buildSenderReport ssrc ntp rtp packets octets).length = 28 := by
  simp [buildSenderReport]

/-- The frame of a report is always built. -/
theorem buildInterleavedFrame_senderReport (channel : UInt8) (ssrc : UInt32) (ntp : UInt64)
    (rtp packets octets : UInt32) :
    ∃ frame, buildInterleavedFrame channel (buildSenderReport ssrc ntp rtp packets octets) =
      .ok frame := by
  rw [buildInterleavedFrame, length_buildSenderReport]
  exact ⟨_, rfl⟩

end RtspServer

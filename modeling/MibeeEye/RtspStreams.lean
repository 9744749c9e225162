/-
**Streams of the RTSP server.**

The server has streams that are configured once, and live streams that are registered and removed
while it runs (`crates/protocols/src/rtsp_server/mod.rs`).  Both are kept in hash maps; a map is a
list of its entries here, in the order in which an iteration visits them.

Main definitions:

* `RtspServer.StreamConfig`, `RtspServer.LiveStreamEntry` — the two kinds of stream;
* `RtspServer.findStreamByUri`, `RtspServer.findLiveStream` — the stream a uri names;
* `RtspServer.buildLiveSdp` — the description of a live stream.
-/

import MibeeEye.Text
import Mathlib.Data.List.Infix

set_option relaxedAutoImplicit false
set_option autoImplicit false

namespace RtspServer

open Text Wire

/-! ### Configured streams -/

/-- `StreamConfig`. -/
structure StreamConfig where
  path : String
  sdpBody : String
  ssrc : UInt32
  deriving DecidableEq, Repr

/-- A path with a slash before it, if it has none. -/
def urlPathOf (path : String) : String := if path.toList.head? = some '/' then path else "/" ++ path

/-- `StreamConfig::url_path`. -/
def StreamConfig.urlPath (s : StreamConfig) : String := urlPathOf s.path

/-- `StreamConfig::matches_uri`. -/
def StreamConfig.matchesUri (s : StreamConfig) (uri : String) : Bool :=
  uri == s.urlPath || s.urlPath.toList.isSuffixOf uri.toList ||
    decide (('/' :: s.path.toList) <:+: uri.toList)

/-- `HashMap<String, StreamConfig>`. -/
abbrev StreamMap : Type := List (String × StreamConfig)

/-- `find_stream_by_uri`. -/
def findStreamByUri (uri : String) (streams : StreamMap) : Option StreamConfig :=
  (streams.map Prod.snd).find? fun s => s.matchesUri uri

/-! ### Live streams -/

/-- `LiveStreamEntry`, without its channel. -/
structure LiveStreamEntry where
  sdpBody : String
  ssrc : UInt32
  cachedSps : Option (List UInt8) := none
  cachedPps : Option (List UInt8) := none
  deriving DecidableEq, Repr

/-- `HashMap<String, LiveStreamEntry>`. -/
abbrev LiveMap : Type := List (String × LiveStreamEntry)

/-- `Iterator::max_by_key`: of several elements with the largest key, the last. -/
def maxByKey {α : Type} (key : α → ℕ) (l : List α) : Option α :=
  l.foldl (fun best a =>
    match best with
    | none => some a
    | some b => if key b ≤ key a then some a else some b) none

/-- The test of `find_live_stream`. -/
def matchesLive (uri : String) (path : String) : Bool :=
  let urlPath := urlPathOf path
  uri == urlPath || urlPath.toList.isSuffixOf uri.toList || decide (urlPath.toList <:+: uri.toList)

/-- `find_live_stream`: of the entries that match, one with the longest path. -/
def findLiveStream (uri : String) (live : LiveMap) : Option (String × LiveStreamEntry) :=
  maxByKey (fun e => (asBytes (urlPathOf e.1)).length) (live.filter fun e => matchesLive uri e.1)

/-! ### The description of a live stream -/

/-- A digit of base 64. -/
def base64Digit (n : ℕ) : Char :=
  Char.ofNat (if n < 26 then 0x41 + n else if n < 52 then 0x61 + (n - 26)
    else if n < 62 then 0x30 + (n - 52) else if n = 62 then 0x2B else 0x2F)

/-- `base64::engine::general_purpose::STANDARD.encode`. -/
def base64Encode : List UInt8 → List Char
  | [] => []
  | [a] => [base64Digit (a.toNat / 4), base64Digit (a.toNat % 4 * 16), '=', '=']
  | [a, b] => [base64Digit (a.toNat / 4), base64Digit (a.toNat % 4 * 16 + b.toNat / 16),
      base64Digit (b.toNat % 16 * 4), '=']
  | a :: b :: c :: rest =>
      base64Digit (a.toNat / 4) :: base64Digit (a.toNat % 4 * 16 + b.toNat / 16) ::
        base64Digit (b.toNat % 16 * 4 + c.toNat / 64) :: base64Digit (c.toNat % 64) ::
        base64Encode rest

/-- `RtspServer::build_live_sdp`: once both parameter sets are known, they stand in the `fmtp`
line. -/
def buildLiveSdp (entry : LiveStreamEntry) : String :=
  match entry.cachedSps, entry.cachedPps, cutAt "a=fmtp:96".toList entry.sdpBody.toList with
  | some sps, some pps, some (before, line) =>
      let fmtp := "a=fmtp:96 packetization-mode=1; sprop-parameter-sets=".toList ++
        base64Encode sps ++ [','] ++ base64Encode pps ++ ['\r', '\n']
      let after := match cutAt ['\r', '\n'] line with
        | some (_, rest) => rest.drop 2
        | none => []
      String.ofList (before ++ fmtp ++ after)
  | _, _, _ => entry.sdpBody

end RtspServer

/-
**The RTMP chunk format: headers and the chunk stream parser.**

`crates/protocols/src/rtmp/chunk.rs`.  An RTMP message travels as one or more chunks.  A chunk has
a basic header (its type and chunk stream id, one to three bytes), a message header whose length
depends on the type, an extended timestamp when the timestamp field is saturated, and data.  The
parser keeps, per chunk stream, the last message header and the number of bytes received of the
message in progress; the bytes themselves it collects in *one* buffer for the whole connection.

Numbers that are `u32` in the source are natural numbers here: every value the parser computes
comes from at most four bytes, and `serialize` writes a number in a fixed width.  The map from
chunk streams to their state is only ever used through `entry(..).or_default()`, so it is the
function from a chunk stream to its state, the default where there is no entry.

Main definitions:

* `Rtmp.ChunkType`, `Rtmp.MessageType`, `Rtmp.ChunkBasicHeader`, `Rtmp.ChunkMessageHeader`, with
  `parse` and `serialize`;
* `Rtmp.ChunkStreamParser`, `Rtmp.ChunkStreamParser.parseChunk` — the parser and one call of it;
* `Rtmp.ChunkStreamParser.parseAll` — calling it until the bytes are exhausted.

Main results:

* `Rtmp.ChunkBasicHeader.reads_serialize` — **every chunk stream id in `2..=65599` survives**;
* `Rtmp.ChunkMessageHeader.reads_serialize_type0` — a Type 0 header is read back;
* `Rtmp.ChunkStreamParser.parseChunk_of_reads`, `Rtmp.ChunkStreamParser.parseChunk_extended` — what
  one call does with a whole chunk, without and with an extended timestamp;
* `Rtmp.ChunkStreamParser.parseChunk_length_lt` — a successful call consumes at least one byte.
-/

import MibeeEye.ByteReader
import Mathlib.Logic.Function.Basic

set_option relaxedAutoImplicit false
set_option autoImplicit false

namespace Rtmp

open Wire

/-! ### Chunk and message types -/

/-- The four chunk types, by how much of the message header they carry. -/
inductive ChunkType
  | type0 | type1 | type2 | type3
  deriving DecidableEq, Repr

namespace ChunkType

/-- `ChunkType::from_u8`. -/
def fromU8 (val : UInt8) : Except String ChunkType :=
  if val = 0 then .ok type0
  else if val = 1 then .ok type1
  else if val = 2 then .ok type2
  else if val = 3 then .ok type3
  else .error s!"Invalid chunk type: {val}"

/-- `ChunkType::to_u8`. -/
def toU8 : ChunkType → UInt8
  | type0 => 0
  | type1 => 1
  | type2 => 2
  | type3 => 3

end ChunkType

/-- The RTMP message types the crate knows. -/
inductive MessageType
  | setChunkSize | abortMessage | acknowledgement | userControlMessage | windowAckSize
  | setPeerBandwidth | audio | video | data | sharedObject | command | aggregate
  deriving DecidableEq, Repr

namespace MessageType

/-- `MessageType::from_u8`. -/
def fromU8 (val : UInt8) : Except String MessageType :=
  if val = 1 then .ok setChunkSize
  else if val = 2 then .ok abortMessage
  else if val = 3 then .ok acknowledgement
  else if val = 4 then .ok userControlMessage
  else if val = 5 then .ok windowAckSize
  else if val = 6 then .ok setPeerBandwidth
  else if val = 8 then .ok audio
  else if val = 9 then .ok video
  else if val = 18 then .ok data
  else if val = 19 then .ok sharedObject
  else if val = 20 then .ok command
  else if val = 22 then .ok aggregate
  else .error s!"Unknown message type: {val}"

/-- `MessageType::to_u8`. -/
def toU8 : MessageType → UInt8
  | setChunkSize => 1
  | abortMessage => 2
  | acknowledgement => 3
  | userControlMessage => 4
  | windowAckSize => 5
  | setPeerBandwidth => 6
  | audio => 8
  | video => 9
  | data => 18
  | sharedObject => 19
  | command => 20
  | aggregate => 22

@[simp] theorem fromU8_toU8 (t : MessageType) : fromU8 t.toU8 = .ok t := by cases t <;> rfl

end MessageType

/-! ### The basic header -/

/-- Chunk type and chunk stream id. -/
structure ChunkBasicHeader where
  chunkType : ChunkType
  chunkStreamId : ℕ
  deriving DecidableEq, Repr

namespace ChunkBasicHeader

/-- `MAX_1BYTE_CSID`. -/
def max1ByteCsid : ℕ := 63

/-- `MAX_2BYTE_CSID`. -/
def max2ByteCsid : ℕ := 319

/-- The chunk stream id after the six low bits `csId` of the first byte: `0` and `1` announce the
two- and three-byte forms. -/
def parseCsid (csId : ℕ) : Reader String ℕ :=
  if csId = 0 then do
    let byte ← readExact "Failed to read 2-byte CSID" 1
    return ofLe byte + 64
  else if csId = 1 then do
    let bytes ← readExact "Failed to read 3-byte CSID" 2
    return ofLe bytes + 64
  else if csId ≤ max1ByteCsid then pure csId
  else .fail s!"Invalid chunk stream ID: {csId}"

/-- `ChunkBasicHeader::parse`. -/
def parse : Reader String ChunkBasicHeader := do
  let firstByte ← readExact "Failed to read first byte of basic header" 1
  let b := firstByte.headD 0
  let chunkType ← .ofExcept (ChunkType.fromU8 ((b >>> 6) &&& 0x03))
  let chunkStreamId ← parseCsid (b &&& 0x3F).toNat
  return { chunkType, chunkStreamId }

/-- `ChunkBasicHeader::serialize`: one, two or three bytes by the size of the id, and a clamped
two-byte form for an id that none of them can hold. -/
def serialize (h : ChunkBasicHeader) : List UInt8 :=
  let fmt := h.chunkType.toU8
  let csId := h.chunkStreamId
  if 2 ≤ csId ∧ csId ≤ max1ByteCsid then [(fmt <<< 6) ||| UInt8.ofNat csId]
  else if 64 ≤ csId ∧ csId ≤ max2ByteCsid then [fmt <<< 6, UInt8.ofNat (csId - 64)]
  else if 320 ≤ csId ∧ csId ≤ 65599 then
    [(fmt <<< 6) ||| 1, UInt8.ofNat ((csId - 64) % 256), UInt8.ofNat ((csId - 64) / 256)]
  else [fmt <<< 6, 64]

theorem serialize_ne_nil (h : ChunkBasicHeader) : h.serialize ≠ [] := by
  unfold serialize
  dsimp only
  split
  · simp
  · split
    · simp
    · split <;> simp

/-- The first byte of a basic header gives back its type and its six low bits. -/
theorem firstByte_fields (t : ChunkType) (cs : Fin 64) :
    ChunkType.fromU8 ((((t.toU8 <<< 6) ||| UInt8.ofNat cs) >>> 6) &&& 0x03) = .ok t ∧
      (((t.toU8 <<< 6) ||| UInt8.ofNat cs) &&& 0x3F).toNat = cs := by
  constructor
  · cases t <;> revert cs <;> decide
  · cases t <;> revert cs <;> decide

/-- What is left of parsing once the first byte is known. -/
theorem reads_parse {t : ChunkType} {cs csid : ℕ} {tail : List UInt8} (hcs : cs < 64)
    (htail : Reads (parseCsid cs) tail csid) :
    Reads parse (((t.toU8 <<< 6) ||| UInt8.ofNat cs) :: tail) ⟨t, csid⟩ := by
  obtain ⟨ht, hlow⟩ := firstByte_fields t ⟨cs, hcs⟩
  have hbyte := reads_readExact "Failed to read first byte of basic header"
    (l := [(t.toU8 <<< 6) ||| UInt8.ofNat cs]) rfl
  refine Reads.bind hbyte (Reads.bind_nil (Reads.ofExcept ht) ?_)
  have hcsid : Reads (parseCsid ((((t.toU8 <<< 6) ||| UInt8.ofNat cs) &&& 0x3F).toNat)) tail csid := by
    rw [hlow]
    exact htail
  exact hcsid.bind_last rfl

/-- **Every chunk stream id in `2..=65599` survives**: the one-, two- and three-byte forms are all
read back. -/
theorem reads_serialize (t : ChunkType) {csid : ℕ} (h2 : 2 ≤ csid) (hmax : csid ≤ 65599) :
    Reads parse (serialize ⟨t, csid⟩) ⟨t, csid⟩ := by
  by_cases h1 : csid ≤ 63
  · have hcsid : Reads (parseCsid csid) [] csid := by
      rw [parseCsid, if_neg (by omega), if_neg (by omega), if_pos (by exact h1)]
      exact Reads.pure csid
    simpa [serialize, max1ByteCsid, h2, h1] using reads_parse (t := t) (by omega) hcsid
  by_cases h3 : csid ≤ 319
  · have hread : Reads (parseCsid 0) [UInt8.ofNat (csid - 64)] csid := by
      have hval : ofLe [UInt8.ofNat (csid - 64)] + 64 = csid := by simp [ofLe]; omega
      rw [parseCsid, if_pos rfl]
      refine Reads.bind_last (reads_readExact _ rfl) ?_
      rw [hval]
    have hzero : (t.toU8 <<< 6) ||| UInt8.ofNat 0 = t.toU8 <<< 6 := by cases t <;> rfl
    have h := reads_parse (t := t) (by omega) hread
    rw [hzero] at h
    simpa [serialize, max1ByteCsid, max2ByteCsid, h1, h3, show 64 ≤ csid by omega] using h
  · have hread : Reads (parseCsid 1)
        [UInt8.ofNat ((csid - 64) % 256), UInt8.ofNat ((csid - 64) / 256)] csid := by
      have hval : ofLe [UInt8.ofNat ((csid - 64) % 256), UInt8.ofNat ((csid - 64) / 256)] + 64
          = csid := by simp [ofLe]; omega
      rw [parseCsid, if_neg (by omega), if_pos rfl]
      refine Reads.bind_last (reads_readExact _ rfl) ?_
      rw [hval]
    have h := reads_parse (t := t) (by omega) hread
    simpa [serialize, max1ByteCsid, max2ByteCsid, h1, h3, hmax, show 320 ≤ csid by omega] using h

end ChunkBasicHeader

/-! ### The message header -/

/-- The message header of a chunk; which fields were on the wire depends on the chunk type. -/
structure ChunkMessageHeader where
  /-- Absolute timestamp (Type 0) or timestamp delta (Type 1 and 2). -/
  timestamp : ℕ
  messageLength : ℕ
  messageType : MessageType
  /-- Only Type 0 carries it. -/
  messageStreamId : Option ℕ
  /-- Whether the timestamp came from an extended timestamp field. -/
  extended : Bool
  deriving DecidableEq, Repr

namespace ChunkMessageHeader

/-- `EXTENDED_TIMESTAMP_THRESHOLD`. -/
def extendedTimestampThreshold : ℕ := 0xFFFFFF

/-- The timestamp of a header whose three-byte field is `timestamp`, and whether it was extended:
the field at its threshold announces four more bytes. -/
def readTimestamp (timestamp : ℕ) : Reader String (ℕ × Bool) :=
  if timestamp = extendedTimestampThreshold then do
    let extBuf ← readExact "Failed to read extended timestamp" 4
    return (ofBe extBuf, true)
  else pure (timestamp, false)

/-- `ChunkMessageHeader::parse_type0`. -/
def parseType0 : Reader String ChunkMessageHeader := do
  let buf ← readExact "Failed to read Type 0 header" 11
  let messageType ← .ofExcept (MessageType.fromU8 ((buf.drop 6).headD 0))
  let (timestamp, extended) ← readTimestamp (ofBe (slice buf 0 3))
  return {
    timestamp, extended, messageType
    messageLength := ofBe (slice buf 3 6)
    messageStreamId := some (ofLe (slice buf 7 11)) }

/-- `ChunkMessageHeader::parse_type1`. -/
def parseType1 : Reader String ChunkMessageHeader := do
  let buf ← readExact "Failed to read Type 1 header" 7
  let messageType ← .ofExcept (MessageType.fromU8 ((buf.drop 6).headD 0))
  let (timestamp, extended) ← readTimestamp (ofBe (slice buf 0 3))
  return {
    timestamp, extended, messageType
    messageLength := ofBe (slice buf 3 6)
    messageStreamId := none }

/-- `ChunkMessageHeader::parse_type2`; length and type are placeholders. -/
def parseType2 : Reader String ChunkMessageHeader := do
  let buf ← readExact "Failed to read Type 2 header" 3
  let (timestamp, extended) ← readTimestamp (ofBe (slice buf 0 3))
  return {
    timestamp, extended
    messageLength := 0
    messageType := .command
    messageStreamId := none }

/-- `ChunkMessageHeader::default`. -/
def default : ChunkMessageHeader where
  timestamp := 0
  messageLength := 0
  messageType := .command
  messageStreamId := none
  extended := false

/-- `ChunkMessageHeader::parse`. -/
def parse : ChunkType → Reader String ChunkMessageHeader
  | .type0 => parseType0
  | .type1 => parseType1
  | .type2 => parseType2
  | .type3 => pure default

/-- The three-byte timestamp field of a serialized header. -/
def timestampField (h : ChunkMessageHeader) : ℕ :=
  if h.extended then extendedTimestampThreshold else min h.timestamp extendedTimestampThreshold

/-- The extended timestamp of a serialized header, if there is one. -/
def extendedField (h : ChunkMessageHeader) : List UInt8 :=
  if h.extended then beBytes 4 h.timestamp else []

/-- `ChunkMessageHeader::serialize`. -/
@[grind =] def serialize (h : ChunkMessageHeader) : ChunkType → List UInt8
  | .type0 =>
      beBytes 3 h.timestampField ++ beBytes 3 (min h.messageLength extendedTimestampThreshold) ++
        [h.messageType.toU8] ++ (h.messageStreamId.elim [] (leBytes 4)) ++ h.extendedField
  | .type1 =>
      beBytes 3 h.timestampField ++ beBytes 3 (min h.messageLength extendedTimestampThreshold) ++
        [h.messageType.toU8] ++ h.extendedField
  | .type2 => beBytes 3 h.timestampField ++ h.extendedField
  | .type3 => []

theorem timestampField_lt (h : ChunkMessageHeader) : h.timestampField < 256 ^ 3 := by
  simp only [timestampField, extendedTimestampThreshold]
  split <;> omega

/-- A timestamp is read back when `extended` says whether it needs the extended field. -/
theorem reads_timestamp (h : ChunkMessageHeader) (hts : h.timestamp < 2 ^ 32)
    (hext : h.extended = decide (extendedTimestampThreshold ≤ h.timestamp)) :
    Reads (readTimestamp h.timestampField) h.extendedField (h.timestamp, h.extended) := by
  by_cases hx : extendedTimestampThreshold ≤ h.timestamp
  · have he : h.extended = true := by simpa [hx] using hext
    simp only [readTimestamp, timestampField, extendedField, he, if_true]
    exact (reads_readExact _ (length_beBytes 4 h.timestamp)).bind_last
      (by rw [ofBe_beBytes_of_lt (by omega)])
  · have he : h.extended = false := by simpa [hx] using hext
    have hmin : min h.timestamp extendedTimestampThreshold = h.timestamp := by omega
    have hne : h.timestamp ≠ extendedTimestampThreshold := by omega
    simp only [readTimestamp, timestampField, extendedField, he, Bool.false_eq_true, if_false, hmin,
      if_neg hne]
    exact Reads.pure _

/-- **The layout of a Type 0 header**: eleven bytes with its fields, and the extended timestamp. -/
theorem serialize_type0_fields (h : ChunkMessageHeader) {msid : ℕ}
    (hmsid : h.messageStreamId = some msid) (hmsid_lt : msid < 2 ^ 32) :
    ∃ buf, h.serialize .type0 = buf ++ h.extendedField ∧ buf.length = 11 ∧
      ofBe (slice buf 0 3) = h.timestampField ∧
      ofBe (slice buf 3 6) = min h.messageLength extendedTimestampThreshold ∧
      (buf.drop 6).headD 0 = h.messageType.toU8 ∧ ofLe (slice buf 7 11) = msid := by
  set buf := beBytes 3 h.timestampField ++ beBytes 3 (min h.messageLength extendedTimestampThreshold)
    ++ [h.messageType.toU8] ++ leBytes 4 msid with hbuf
  refine ⟨buf, ?_, ?_, ?_, ?_, ?_, ?_⟩
  · simp [serialize, hbuf, hmsid]
  · simp [hbuf]
  · rw [show slice buf 0 3 = beBytes 3 h.timestampField by simp [hbuf, slice]]
    exact ofBe_beBytes_of_lt h.timestampField_lt
  · rw [show slice buf 3 6 = beBytes 3 (min h.messageLength extendedTimestampThreshold) by
      simp [hbuf, slice]]
    exact ofBe_beBytes_of_lt (by simp only [extendedTimestampThreshold]; omega)
  · simp [hbuf, List.drop_append, List.drop_eq_nil_of_le]
  · rw [show slice buf 7 11 = leBytes 4 msid by
      simp [hbuf, slice, List.drop_append, List.drop_eq_nil_of_le, List.take_of_length_le]]
    exact ofLe_leBytes_of_lt (by omega)

/-- **A Type 0 header is read back**, with and without an extended timestamp. -/
theorem reads_serialize_type0 (h : ChunkMessageHeader) {msid : ℕ}
    (hts : h.timestamp < 2 ^ 32) (hlen : h.messageLength ≤ extendedTimestampThreshold)
    (hmsid : h.messageStreamId = some msid) (hmsid_lt : msid < 2 ^ 32)
    (hext : h.extended = decide (extendedTimestampThreshold ≤ h.timestamp)) :
    Reads (parse .type0) (h.serialize .type0) h := by
  obtain ⟨buf, hser, hbuf_len, hfield, hlength, htype, hstream⟩ :=
    h.serialize_type0_fields hmsid hmsid_lt
  rw [min_eq_left hlen] at hlength
  rw [hser]
  refine Reads.bind (reads_readExact _ hbuf_len) ?_
  refine Reads.bind_nil (Reads.ofExcept (a := h.messageType) (by rw [htype]; simp)) ?_
  have hts' : Reads (readTimestamp (ofBe (slice buf 0 3))) h.extendedField
      (h.timestamp, h.extended) := by
    rw [hfield]
    exact h.reads_timestamp hts hext
  exact hts'.bind_last (by rw [hlength, hstream, ← hmsid])

end ChunkMessageHeader

/-! ### The chunk stream parser -/

/-- Per-chunk-stream state. -/
structure ChunkStreamState where
  lastHeader : Option ChunkMessageHeader := none
  receivedBytes : ℕ := 0
  deriving DecidableEq, Repr

/-- The parser of one connection. -/
structure ChunkStreamParser where
  streams : ℕ → ChunkStreamState := fun _ => {}
  chunkSize : ℕ
  /-- The bytes collected since the last complete message, of whichever chunk stream. -/
  currentMessage : List UInt8 := []
  /-- Window acknowledgement size (0 = acknowledgements disabled). -/
  ackWindowSize : ℕ := 0
  totalBytesReceived : ℕ := 0
  bytesSinceLastAck : ℕ := 0

namespace ChunkStreamParser

/-- `DEFAULT_CHUNK_SIZE`. -/
def defaultChunkSize : ℕ := 128

/-- `ChunkStreamParser::new`. -/
def new : ChunkStreamParser where
  chunkSize := defaultChunkSize

/-- `ChunkStreamParser::handle_set_chunk_size`. -/
def handleSetChunkSize (p : ChunkStreamParser) (data : List UInt8) :
    Except String ChunkStreamParser :=
  let len := data.length
  if len < 4 then .error s!"SetChunkSize data too short: {len}"
  else
    let chunkSize := ofBe (data.take 4) % 2 ^ 31
    if 1 ≤ chunkSize ∧ chunkSize ≤ 0xFFFFFF then .ok { p with chunkSize }
    else .error s!"Invalid chunk size: {chunkSize}"

/-- `ChunkStreamParser::handle_window_ack_size`. -/
def handleWindowAckSize (p : ChunkStreamParser) (data : List UInt8) :
    Except String ChunkStreamParser :=
  let len := data.length
  if len < 4 then .error s!"WindowAckSize data too short: {len}"
  else .ok { p with ackWindowSize := ofBe (data.take 4) }

/-- `ChunkStreamParser::take_ack_if_needed`. -/
def takeAckIfNeeded (p : ChunkStreamParser) : Option ℕ × ChunkStreamParser :=
  if 0 < p.ackWindowSize ∧ p.ackWindowSize / 2 ≤ p.bytesSinceLastAck then
    (some (p.totalBytesReceived % 2 ^ 32), { p with bytesSinceLastAck := 0 })
  else (none, p)

/-- The header a chunk of the given type stands for: Type 3 takes over the last one of its
stream, the others bring their own. -/
def readHeader (basic : ChunkBasicHeader) (state : ChunkStreamState) :
    Reader String ChunkMessageHeader :=
  match basic.chunkType with
  | .type3 =>
      match state.lastHeader with
      | some lastHeader => pure lastHeader
      | none =>
          let csId := basic.chunkStreamId
          .fail s!"Type 3 chunk without previous header for cs_id={csId}"
  | t => ChunkMessageHeader.parse t

/-- The chunk's data counted and collected, its header remembered. -/
def accumulate (p : ChunkStreamParser) (csId : ℕ) (header : ChunkMessageHeader)
    (chunkData : List UInt8) : ChunkStreamParser :=
  let receivedBytes := (p.streams csId).receivedBytes + chunkData.length
  { p with
    streams := Function.update p.streams csId { lastHeader := some header, receivedBytes }
    currentMessage := p.currentMessage ++ chunkData
    totalBytesReceived := p.totalBytesReceived + chunkData.length
    bytesSinceLastAck := p.bytesSinceLastAck + chunkData.length }

/-- The end of a chunk: when the stream has received its message's length, the buffer is the
message, and a WindowAckSize message is acted upon. -/
def complete (p : ChunkStreamParser) (csId : ℕ) (header : ChunkMessageHeader) :
    Except String (Option (List UInt8)) × ChunkStreamParser :=
  let state := p.streams csId
  if header.messageLength ≤ state.receivedBytes then
    let message := p.currentMessage
    let p := { p with
      currentMessage := []
      streams := Function.update p.streams csId { state with receivedBytes := 0 } }
    if header.messageType = .windowAckSize then
      match p.handleWindowAckSize message with
      | .ok p => (.ok (some message), p)
      | .error e => (.error e, p)
    else (.ok (some message), p)
  else (.ok none, p)

/-- The extended timestamp that `parse_chunk` expects after the data of a chunk whose header was
extended. -/
def skipExtended (header : ChunkMessageHeader) : Reader String Unit :=
  if header.extended then do
    let _ ← readExact "Failed to read extended timestamp" 4
    return ()
  else pure ()

/-- The number of data bytes of a chunk. -/
def chunkDataSize (p : ChunkStreamParser) (csId : ℕ) (header : ChunkMessageHeader) : ℕ :=
  min (header.messageLength - (p.streams csId).receivedBytes) p.chunkSize

/-- `ChunkStreamParser::parse_chunk`: one chunk off the front of the bytes.  The parser and the
bytes left are returned also with an error, since the caller goes on with both. -/
def parseChunk (p : ChunkStreamParser) (bs : List UInt8) :
    Except String (Option (List UInt8)) × ChunkStreamParser × List UInt8 :=
  match ChunkBasicHeader.parse bs with
  | (.error e, rest) => (.error e, p, rest)
  | (.ok basic, rest) =>
      let csId := basic.chunkStreamId
      match readHeader basic (p.streams csId) rest with
      | (.error e, rest) => (.error e, p, rest)
      | (.ok header, rest) =>
          match readExact "Failed to read chunk data" (p.chunkDataSize csId header) rest with
          | (.error e, rest) =>
              -- the header is remembered although the data is not there yet
              (.error e, p.accumulate csId header [], rest)
          | (.ok chunkData, rest) =>
              let p := p.accumulate csId header chunkData
              match skipExtended header rest with
              | (.error e, rest) => (.error e, p, rest)
              | (.ok _, rest) =>
                  let (result, p) := p.complete csId header
                  (result, p, rest)

/-! ### One call of the parser -/

/-- **A chunk that is all there**: header and data are consumed, and for a header that was not
extended nothing else is. -/
theorem parseChunk_of_reads {p : ChunkStreamParser} {basic : ChunkBasicHeader}
    {header : ChunkMessageHeader} {b h chunkData : List UInt8}
    (hb : Reads ChunkBasicHeader.parse b basic)
    (hh : Reads (readHeader basic (p.streams basic.chunkStreamId)) h header)
    (hlen : chunkData.length = p.chunkDataSize basic.chunkStreamId header)
    (hext : header.extended = false) (rest : List UInt8) :
    p.parseChunk (b ++ h ++ chunkData ++ rest) =
      (((p.accumulate basic.chunkStreamId header chunkData).complete
          basic.chunkStreamId header).1,
        ((p.accumulate basic.chunkStreamId header chunkData).complete
          basic.chunkStreamId header).2, rest) := by
  have hskip : skipExtended header rest = (.ok (), rest) := by
    rw [skipExtended, hext]
    rfl
  rw [parseChunk, List.append_assoc, List.append_assoc, hb]
  simp only [hh (chunkData ++ rest), reads_readExact _ hlen rest, hskip]

/-- **A chunk with an extended timestamp at the end of the bytes**: `parse_chunk` looks for the
extended timestamp a second time, after the data, and fails. -/
theorem parseChunk_extended {p : ChunkStreamParser} {basic : ChunkBasicHeader}
    {header : ChunkMessageHeader} {b h chunkData : List UInt8}
    (hb : Reads ChunkBasicHeader.parse b basic)
    (hh : Reads (readHeader basic (p.streams basic.chunkStreamId)) h header)
    (hlen : chunkData.length = p.chunkDataSize basic.chunkStreamId header)
    (hext : header.extended = true) :
    p.parseChunk (b ++ h ++ chunkData) =
      (.error "Failed to read extended timestamp",
        p.accumulate basic.chunkStreamId header chunkData, []) := by
  have hskip : skipExtended header [] = (.error "Failed to read extended timestamp", []) := by
    rw [skipExtended, hext]
    rfl
  have hdata := reads_readExact "Failed to read chunk data" hlen []
  rw [List.append_nil] at hdata
  rw [parseChunk, List.append_assoc, hb]
  simp only [hh chunkData, hdata, hskip]

theorem consumes_parseCsid (csId : ℕ) : Consumes (ChunkBasicHeader.parseCsid csId) 0 := by
  unfold ChunkBasicHeader.parseCsid
  split
  · exact ((consumes_readExact _ 1).bind fun _ => Consumes.pure _).mono (by omega)
  · split
    · exact ((consumes_readExact _ 2).bind fun _ => Consumes.pure _).mono (by omega)
    · split
      · exact Consumes.pure _
      · exact Consumes.fail _ _

theorem consumes_basicHeader : Consumes ChunkBasicHeader.parse 1 := by
  refine Consumes.bind (consumes_readExact _ 1) (n := 0) fun _ => ?_
  refine Consumes.bind (m := 0) (n := 0) (Consumes.ofExcept _) fun _ => ?_
  exact Consumes.bind (m := 0) (n := 0) (consumes_parseCsid _) fun _ => Consumes.pure _

theorem consumes_readTimestamp (ts : ℕ) : Consumes (ChunkMessageHeader.readTimestamp ts) 0 := by
  unfold ChunkMessageHeader.readTimestamp
  split
  · exact ((consumes_readExact _ 4).bind fun _ => Consumes.pure _).mono (by omega)
  · exact Consumes.pure _

theorem consumes_messageHeader (t : ChunkType) : Consumes (ChunkMessageHeader.parse t) 0 := by
  cases t with
  | type0 =>
      refine Consumes.mono (n := 11) (Consumes.bind (consumes_readExact _ 11) (n := 0) fun _ => ?_)
        (by omega)
      refine Consumes.bind (m := 0) (n := 0) (Consumes.ofExcept _) fun _ => ?_
      exact Consumes.bind (m := 0) (n := 0) (consumes_readTimestamp _) fun _ => Consumes.pure _
  | type1 =>
      refine Consumes.mono (n := 7) (Consumes.bind (consumes_readExact _ 7) (n := 0) fun _ => ?_)
        (by omega)
      refine Consumes.bind (m := 0) (n := 0) (Consumes.ofExcept _) fun _ => ?_
      exact Consumes.bind (m := 0) (n := 0) (consumes_readTimestamp _) fun _ => Consumes.pure _
  | type2 =>
      refine Consumes.mono (n := 3) (Consumes.bind (consumes_readExact _ 3) (n := 0) fun _ => ?_)
        (by omega)
      exact Consumes.bind (m := 0) (n := 0) (consumes_readTimestamp _) fun _ => Consumes.pure _
  | type3 => exact Consumes.pure _

theorem consumes_readHeader (basic : ChunkBasicHeader) (state : ChunkStreamState) :
    Consumes (readHeader basic state) 0 := by
  unfold readHeader
  split
  · split
    · exact Consumes.pure _
    · exact Consumes.fail _ _
  · exact consumes_messageHeader _

theorem consumes_skipExtended (header : ChunkMessageHeader) : Consumes (skipExtended header) 0 := by
  unfold skipExtended
  split
  · exact ((consumes_readExact _ 4).bind fun _ => Consumes.pure _).mono (by omega)
  · exact Consumes.pure _

/-- **Every successful call consumes at least one byte**, so that parsing until the bytes are
exhausted ends. -/
theorem parseChunk_length_lt {p p' : ChunkStreamParser} {bs rest : List UInt8}
    {r : Option (List UInt8)} (h : p.parseChunk bs = (.ok r, p', rest)) :
    rest.length < bs.length := by
  unfold parseChunk at h
  split at h
  · simp at h
  · rename_i basic rest₁ h₁
    dsimp only at h
    split at h
    · simp at h
    · rename_i header rest₂ h₂
      split at h
      · simp at h
      · rename_i chunkData rest₃ h₃
        split at h
        · simp at h
        · rename_i u rest₄ h₄
          have hrest : rest₄ = rest := (Prod.mk.inj (Prod.mk.inj h).2).2
          have e₁ := consumes_basicHeader _ _ _ h₁
          have e₂ := consumes_readHeader _ _ _ _ _ h₂
          have e₃ := consumes_readExact _ _ _ _ _ h₃
          have e₄ := consumes_skipExtended _ _ _ _ h₄
          rw [hrest] at e₄
          omega

/-! ### Parsing until the bytes are exhausted -/

/-- The results of calling `parse_chunk` on the bytes until none are left, or the first error.
`fuel` bounds the number of calls. -/
@[grind =]
def parseAllF : ℕ → ChunkStreamParser → List UInt8 → Except String (List (Option (List UInt8)))
  | _, _, [] => .ok []
  | 0, _, _ :: _ => .error "out of fuel"
  | fuel + 1, p, b :: bs =>
      match p.parseChunk (b :: bs) with
      | (.error e, _, _) => .error e
      | (.ok r, p, rest) => (parseAllF fuel p rest).map (r :: ·)

/-- **The results of calling `parse_chunk` until the bytes are exhausted.** -/
def parseAll (p : ChunkStreamParser) (bs : List UInt8) :
    Except String (List (Option (List UInt8))) := parseAllF bs.length p bs

theorem parseAllF_eq_parseAll : ∀ (n fuel : ℕ) (p : ChunkStreamParser) (bs : List UInt8),
    bs.length = n → n ≤ fuel → parseAllF fuel p bs = parseAll p bs := by
  intro n
  induction n using Nat.strong_induction_on with
  | _ n ih =>
      intro fuel p bs hn hfuel
      cases bs with
      | nil => cases fuel <;> rfl
      | cons b bs =>
          obtain ⟨fuel, rfl⟩ : ∃ k, fuel = k + 1 := ⟨fuel - 1, by simp at hn; omega⟩
          rw [parseAll, List.length_cons, parseAllF, parseAllF]
          cases hrun : p.parseChunk (b :: bs) with
          | mk x pr =>
              obtain ⟨p', rest⟩ := pr
              cases x with
              | error e => rfl
              | ok r =>
                  have hlt := parseChunk_length_lt hrun
                  simp only [List.length_cons] at hlt hn
                  simp only
                  rw [ih rest.length (by omega) fuel p' rest rfl (by omega),
                    ih rest.length (by omega) bs.length p' rest rfl (by omega)]

@[simp] theorem parseAll_nil (p : ChunkStreamParser) : p.parseAll [] = .ok [] := rfl

theorem parseAll_of_error {p p' : ChunkStreamParser} {bs rest : List UInt8} {e : String}
    (hne : bs ≠ []) (h : p.parseChunk bs = (.error e, p', rest)) : p.parseAll bs = .error e := by
  cases bs with
  | nil => exact absurd rfl hne
  | cons b bs => rw [parseAll, List.length_cons, parseAllF, h]

/-- One call, then the rest. -/
theorem parseAll_of_ok {p p' : ChunkStreamParser} {bs rest : List UInt8} {r : Option (List UInt8)}
    (h : p.parseChunk bs = (.ok r, p', rest)) :
    p.parseAll bs = (p'.parseAll rest).map (r :: ·) := by
  have hlt := parseChunk_length_lt h
  cases bs with
  | nil => simp at hlt
  | cons b bs =>
      rw [parseAll, List.length_cons, parseAllF, h]
      simp only [List.length_cons] at hlt ⊢
      rw [parseAllF_eq_parseAll rest.length bs.length p' rest rfl (by omega)]

end ChunkStreamParser

end Rtmp

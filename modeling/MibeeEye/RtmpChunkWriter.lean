/-
**Writing RTMP messages as chunks, and what the parser makes of them.**

`RtmpPushClient::write_chunked` in `crates/protocols/src/rtmp/mod.rs` writes a message as a Type 0
chunk followed by Type 3 continuation chunks.  This module embeds the writer and relates it to
`Rtmp.ChunkStreamParser`.

The relation is stated for schedules: sequences of chunks in which the chunks of one message keep
their order and a chunk stream carries one message at a time, but different chunk streams may take
turns.  On every such schedule of messages with timestamps below `0xFFFFFF` the parser behaves
exactly as a demultiplexer with a *single* buffer: it appends the data of every chunk to the buffer
and hands out the whole buffer at the last chunk of a message (`Rtmp.parseAll_schedule`).

Main definitions:

* `Rtmp.writeChunked` — the writer;
* `Rtmp.Message`, `Rtmp.Message.wire` — a message the writer can be given, and its bytes;
* `Rtmp.Message.pieces` — the chunks of a message;
* `Rtmp.Progress`, `Rtmp.Schedule` — where each chunk stream stands, and the chunk sequences a
  sender may produce from there;
* `Rtmp.sharedRun` — the demultiplexer with one buffer.

Main results:

* `Rtmp.Message.wire_eq_pieces` — the writer's output is the chunks one after another;
* `Rtmp.parseAll_schedule` — **the parser is the single-buffer demultiplexer**;
* `Rtmp.sharedRun_owned` — a message whose chunks come together is delivered.
-/

import MibeeEye.RtmpChunk
import MibeeEye.ListCut

set_option relaxedAutoImplicit false
set_option autoImplicit false

namespace Rtmp

open Wire

/-! ### The writer -/

/-- The loop of `write_chunked` over the data not yet written: a piece of at most `chunkSize`
bytes, and a continuation header when there is more.  `fuel` bounds the number of pieces; with
`1 ≤ chunkSize` the length of the data is enough (with `chunkSize = 0` the source's loop does not
end). -/
@[grind =] def writeBody (cont : List UInt8) (chunkSize : ℕ) : ℕ → List UInt8 → List UInt8
  | 0, _ => []
  | fuel + 1, data =>
      if data = [] then []
      else
        let rest := data.drop chunkSize
        data.take chunkSize ++
          (if rest = [] then [] else cont ++ writeBody cont chunkSize fuel rest)

/-- The message header `write_chunked` writes. -/
def writtenHeader (msgType : MessageType) (messageStreamId timestamp : ℕ) (data : List UInt8) :
    ChunkMessageHeader where
  timestamp := timestamp
  messageLength := data.length % 2 ^ 32
  messageType := msgType
  messageStreamId := some messageStreamId
  extended := decide (0xFFFFFF ≤ timestamp)

/-- `RtmpPushClient::write_chunked`: the bytes put on the socket. -/
def writeChunked (chunkStreamId : ℕ) (msgType : MessageType) (messageStreamId timestamp : ℕ)
    (chunkSize : ℕ) (data : List UInt8) : List UInt8 :=
  ChunkBasicHeader.serialize ⟨.type0, chunkStreamId⟩ ++
    (writtenHeader msgType messageStreamId timestamp data).serialize .type0 ++
    writeBody (ChunkBasicHeader.serialize ⟨.type3, chunkStreamId⟩) chunkSize data.length data

/-! ### Messages and their chunks -/

/-- A message for the chunk writer: its fields have the ranges of the wire format. -/
structure Message where
  chunkStreamId : ℕ
  messageType : MessageType
  messageStreamId : ℕ
  timestamp : ℕ
  payload : List UInt8
  csid_ge : 2 ≤ chunkStreamId := by decide
  csid_le : chunkStreamId ≤ 65599 := by decide
  msid_lt : messageStreamId < 2 ^ 32 := by decide
  timestamp_lt : timestamp < 2 ^ 32 := by decide
  payload_le : payload.length ≤ 0xFFFFFF := by decide

/-- A message on one of the first 256 chunk streams. -/
def Message.small (messageType : MessageType) (k : UInt8) (messageStreamId timestamp : UInt32)
    (payload : List UInt8) (h : payload.length ≤ 0xFFFFFF := by decide) : Message where
  chunkStreamId := k.toNat + 2
  messageType := messageType
  messageStreamId := messageStreamId.toNat
  timestamp := timestamp.toNat
  payload := payload
  csid_ge := by omega
  csid_le := by
    have := k.toNat_lt
    omega
  msid_lt := messageStreamId.toNat_lt
  timestamp_lt := timestamp.toNat_lt
  payload_le := h

/-- A chunk as it travels: its bytes, the data among them, and whether it is the last of its
message. -/
structure Piece where
  wire : List UInt8
  data : List UInt8
  last : Bool
  deriving DecidableEq

namespace Message

/-- The bytes `write_chunked` produces for the message with chunk size `c`. -/
def wire (c : ℕ) (m : Message) : List UInt8 :=
  writeChunked m.chunkStreamId m.messageType m.messageStreamId m.timestamp c m.payload

/-- The message header on the wire. -/
def header (m : Message) : ChunkMessageHeader :=
  writtenHeader m.messageType m.messageStreamId m.timestamp m.payload

/-- The bytes before the data of the first chunk. -/
def firstHead (m : Message) : List UInt8 :=
  ChunkBasicHeader.serialize ⟨.type0, m.chunkStreamId⟩ ++ m.header.serialize .type0

/-- The bytes before the data of a continuation chunk. -/
def contHead (m : Message) : List UInt8 :=
  ChunkBasicHeader.serialize ⟨.type3, m.chunkStreamId⟩

/-- The continuation chunks carrying the given data. -/
@[grind =] def contPieces (m : Message) : List (List UInt8) → List Piece
  | [] => []
  | d :: ds => ⟨m.contHead ++ d, d, ds.isEmpty⟩ :: m.contPieces ds

/-- **The chunks of a message**: a Type 0 chunk and Type 3 continuations. -/
def pieces (c : ℕ) (m : Message) : List Piece :=
  match cut c m.payload with
  | [] => []
  | d :: ds => ⟨m.firstHead ++ d, d, ds.isEmpty⟩ :: m.contPieces ds

/-- What the receiver is to get at a chunk of the message: the payload at the last one. -/
def expected (m : Message) (q : Piece) : Option (List UInt8) :=
  if q.last then some m.payload else none

@[simp] theorem header_messageLength (m : Message) : m.header.messageLength = m.payload.length := by
  have := m.payload_le
  simp only [header, writtenHeader]
  omega

theorem writeBody_eq (m : Message) {c : ℕ} (hc : 1 ≤ c) :
    ∀ (data : List UInt8) (fuel : ℕ), data ≠ [] → data.length ≤ fuel →
      m.contHead ++ writeBody m.contHead c fuel data
        = (m.contPieces (cut c data)).flatMap Piece.wire := by
  intro data
  induction data using cut_induction hc with
  | short data h =>
      intro fuel hne hfuel
      obtain ⟨fuel, rfl⟩ : ∃ k, fuel = k + 1 :=
        ⟨fuel - 1, by have := List.length_pos_iff.2 hne; omega⟩
      rw [cut_of_le h, writeBody, if_neg hne]
      simp [contPieces, List.take_of_length_le h, List.drop_of_length_le h]
  | long data h ih =>
      intro fuel hne hfuel
      obtain ⟨fuel, rfl⟩ : ∃ k, fuel = k + 1 :=
        ⟨fuel - 1, by have := List.length_pos_iff.2 hne; omega⟩
      have hrest : data.drop c ≠ [] := by
        intro hnil
        have := congrArg List.length hnil
        rw [List.length_drop, List.length_nil] at this
        omega
      rw [cut_of_lt hc h, writeBody, if_neg hne]
      simp only [if_neg hrest, contPieces, List.flatMap_cons]
      rw [ih fuel hrest (by rw [List.length_drop]; omega), ← List.append_assoc]

/-- **The writer's output is the chunks of the message, one after another.** -/
theorem wire_eq_pieces (m : Message) {c : ℕ} (hc : 1 ≤ c) :
    m.wire c = (m.pieces c).flatMap Piece.wire := by
  rw [wire, writeChunked, pieces]
  rcases Nat.lt_or_ge c m.payload.length with hlt | hle
  · have hne : m.payload ≠ [] := by
      intro h
      simp [h] at hlt
    have hrest : m.payload.drop c ≠ [] := by
      intro hnil
      have := congrArg List.length hnil
      rw [List.length_drop, List.length_nil] at this
      omega
    obtain ⟨k, hk⟩ : ∃ k, m.payload.length = k + 1 := ⟨m.payload.length - 1, by omega⟩
    have hbody := m.writeBody_eq hc (m.payload.drop c) k hrest (by rw [List.length_drop]; omega)
    rw [cut_of_lt hc hlt, hk, writeBody, if_neg hne]
    simp only [if_neg hrest, List.flatMap_cons, ← hbody, firstHead, header, contHead,
      List.append_assoc]
  · rw [cut_of_le hle]
    cases hp : m.payload with
    | nil => simp [writeBody, contPieces, firstHead, header, hp]
    | cons b l =>
        rw [hp] at hle
        rw [List.length_cons, writeBody, if_neg (by simp)]
        simp [contPieces, firstHead, header, hp, List.take_of_length_le hle,
          List.drop_of_length_le hle]

end Message

/-! ### Schedules of chunks -/

/-- Where a chunk stream stands: nothing in flight, or a message with chunks still to come. -/
inductive Progress
  | idle
  | busy (m : Message) (rest : List Piece)

/-- Where the chunk stream of a message stands after one of its chunks. -/
def Progress.after (m : Message) (q : Piece) (ps : List Piece) : Progress :=
  if q.last then .idle else .busy m ps

/-- **The chunk sequences a sender may produce** from one progress of its chunk streams to
another: each chunk starts a message on an idle chunk stream or continues the one in flight
there. -/
inductive Schedule (c : ℕ) :
    (ℕ → Progress) → List (Message × Piece) → (ℕ → Progress) → Prop
  | nil (T : ℕ → Progress) : Schedule c T [] T
  | start {T T' : ℕ → Progress} {m : Message} {q : Piece} {ps : List Piece}
      {s : List (Message × Piece)} : T m.chunkStreamId = .idle → m.pieces c = q :: ps →
      Schedule c (Function.update T m.chunkStreamId (.after m q ps)) s T' →
      Schedule c T ((m, q) :: s) T'
  | cont {T T' : ℕ → Progress} {m : Message} {q : Piece} {ps : List Piece}
      {s : List (Message × Piece)} : T m.chunkStreamId = .busy m (q :: ps) →
      Schedule c (Function.update T m.chunkStreamId (.after m q ps)) s T' →
      Schedule c T ((m, q) :: s) T'

/-- What a message's last chunk yields when the buffer holds `buf`: the buffer, unless the message
is a WindowAckSize for which it is too short. -/
def deliver (m : Message) (buf : List UInt8) : Except String (Option (List UInt8)) :=
  let len := buf.length
  if m.messageType = .windowAckSize ∧ buf.length < 4 then
    .error s!"WindowAckSize data too short: {len}"
  else .ok (some buf)

/-- The results of a run with some more in front. -/
def prepend (rs : List (Option (List UInt8))) (x : List (Option (List UInt8)) × List UInt8) :
    List (Option (List UInt8)) × List UInt8 := (rs ++ x.1, x.2)

/-- **The demultiplexer with one buffer**, run on a schedule from the buffer `buf`: the result at
each chunk, and the buffer at the end. -/
@[grind =] def sharedRun : List UInt8 → List (Message × Piece) →
    Except String (List (Option (List UInt8)) × List UInt8)
  | buf, [] => .ok ([], buf)
  | buf, (m, q) :: s =>
      if q.last then
        match deliver m (buf ++ q.data) with
        | .error e => .error e
        | .ok r => (sharedRun [] s).map (prepend [r])
      else (sharedRun (buf ++ q.data) s).map (prepend [none])

/-- The parser's state of chunk stream `s` is the one the sender's progress calls for. -/
def Tracks (c : ℕ) (p : ChunkStreamParser) (s : ℕ) : Progress → Prop
  | .idle => (p.streams s).receivedBytes = 0
  | .busy m ps => ∃ r, r < m.payload.length ∧ p.streams s = ⟨some m.header, r⟩ ∧
      ps = m.contPieces (cut c (m.payload.drop r))

/-! ### One chunk -/

/-- The end of the last chunk of a message. -/
theorem complete_last {p : ChunkStreamParser} {m : Message}
    (h : m.payload.length ≤ (p.streams m.chunkStreamId).receivedBytes) :
    ∃ p', p.complete m.chunkStreamId m.header = (deliver m p.currentMessage, p') ∧
      p'.chunkSize = p.chunkSize ∧ p'.currentMessage = [] ∧
      p'.streams = Function.update p.streams m.chunkStreamId
        { p.streams m.chunkStreamId with receivedBytes := 0 } := by
  have hle : m.header.messageLength ≤ (p.streams m.chunkStreamId).receivedBytes := by simpa using h
  have htype : m.header.messageType = m.messageType := rfl
  unfold ChunkStreamParser.complete
  simp only [if_pos hle, htype, ChunkStreamParser.handleWindowAckSize, deliver]
  by_cases hw : m.messageType = .windowAckSize
  · by_cases hlen : p.currentMessage.length < 4
    · simp only [hw, hlen, if_true, and_self]
      exact ⟨_, rfl, rfl, rfl, rfl⟩
    · simp only [hw, hlen, if_true, if_false, and_false]
      exact ⟨_, rfl, rfl, rfl, rfl⟩
  · simp only [hw, if_false, false_and]
    exact ⟨_, rfl, rfl, rfl, rfl⟩

/-- The end of a chunk that is not the last of its message. -/
theorem complete_more {p : ChunkStreamParser} {m : Message}
    (h : (p.streams m.chunkStreamId).receivedBytes < m.payload.length) :
    p.complete m.chunkStreamId m.header = (.ok none, p) := by
  have hlt : ¬ m.header.messageLength ≤ (p.streams m.chunkStreamId).receivedBytes := by
    simpa using h
  simp only [ChunkStreamParser.complete, if_neg hlt]

/-- **One chunk of a message** of which `r` bytes have been received.  Its data is what the chunk
size allows of the rest; it goes to the end of the buffer, and if it completes the message the
buffer is delivered and emptied.  No other chunk stream is touched. -/
theorem parseChunk_piece {p : ChunkStreamParser} {m : Message} {t : ChunkType} {r c : ℕ}
    {h d : List UInt8} (hts : m.timestamp < 0xFFFFFF) (hsize : p.chunkSize = c)
    (hr : (p.streams m.chunkStreamId).receivedBytes = r) (hrle : r ≤ m.payload.length)
    (hh : Reads (ChunkStreamParser.readHeader ⟨t, m.chunkStreamId⟩ (p.streams m.chunkStreamId))
      h m.header)
    (hd : d.length = min (m.payload.length - r) c) (rest : List UInt8) :
    ∃ p', p.parseChunk (ChunkBasicHeader.serialize ⟨t, m.chunkStreamId⟩ ++ h ++ d ++ rest) =
        (if r + d.length = m.payload.length then deliver m (p.currentMessage ++ d) else .ok none,
          p', rest) ∧
      p'.chunkSize = c ∧
      p'.currentMessage =
        (if r + d.length = m.payload.length then [] else p.currentMessage ++ d) ∧
      p'.streams = Function.update p.streams m.chunkStreamId
        ⟨some m.header, if r + d.length = m.payload.length then 0 else r + d.length⟩ := by
  have hext : m.header.extended = false := by
    simp only [Message.header, writtenHeader, decide_eq_false_iff_not]
    omega
  have hdata : d.length = p.chunkDataSize m.chunkStreamId m.header := by
    rw [hd, ChunkStreamParser.chunkDataSize, hr, hsize, m.header_messageLength]
  rw [ChunkStreamParser.parseChunk_of_reads
    (ChunkBasicHeader.reads_serialize t m.csid_ge m.csid_le) hh hdata hext rest]
  set q := p.accumulate m.chunkStreamId m.header d with hq
  have hstream : q.streams m.chunkStreamId = ⟨some m.header, r + d.length⟩ := by
    simp [hq, ChunkStreamParser.accumulate, hr]
  have hq_size : q.chunkSize = c := hsize
  have hq_buf : q.currentMessage = p.currentMessage ++ d := rfl
  by_cases hlast : r + d.length = m.payload.length
  · obtain ⟨p', hrun, hs, hbuf, hstreams⟩ := complete_last (p := q) (m := m)
      (by rw [hstream]; exact hlast.ge)
    refine ⟨p', ?_, hs.trans hq_size, ?_, ?_⟩
    · rw [hrun, if_pos hlast, hq_buf]
    · rw [hbuf, if_pos hlast]
    · rw [hstreams, if_pos hlast, hstream]
      simp [hq, ChunkStreamParser.accumulate]
  · have hmore := complete_more (p := q) (m := m) (by rw [hstream]; simp only; omega)
    refine ⟨q, ?_, hq_size, ?_, ?_⟩
    · rw [hmore, if_neg hlast]
    · rw [hq_buf, if_neg hlast]
    · rw [if_neg hlast]
      simp [hq, ChunkStreamParser.accumulate, hr]

/-- What one call of the parser does with the chunk `q` of `m`, of which `ps` are still to come. -/
def PieceStep (c : ℕ) (p : ChunkStreamParser) (m : Message) (q : Piece) (ps : List Piece) : Prop :=
  q.wire ≠ [] ∧ ∀ rest, ∃ p', p.parseChunk (q.wire ++ rest) =
      (if q.last then deliver m (p.currentMessage ++ q.data) else .ok none, p', rest) ∧
    p'.chunkSize = c ∧
    p'.currentMessage = (if q.last then [] else p.currentMessage ++ q.data) ∧
    Tracks c p' m.chunkStreamId (.after m q ps) ∧
    ∀ s, s ≠ m.chunkStreamId → p'.streams s = p.streams s

/-- The chunk that carries the first piece `d` of what is left of the payload. -/
theorem pieceStep_of_cut {p : ChunkStreamParser} {m : Message} {t : ChunkType} {r c : ℕ}
    {h d : List UInt8} {ds : List (List UInt8)} (hc : 1 ≤ c) (hts : m.timestamp < 0xFFFFFF)
    (hsize : p.chunkSize = c) (hr : (p.streams m.chunkStreamId).receivedBytes = r)
    (hrle : r ≤ m.payload.length)
    (hh : Reads (ChunkStreamParser.readHeader ⟨t, m.chunkStreamId⟩ (p.streams m.chunkStreamId))
      h m.header)
    (hcut : cut c (m.payload.drop r) = d :: ds) :
    PieceStep c p m
      ⟨ChunkBasicHeader.serialize ⟨t, m.chunkStreamId⟩ ++ h ++ d, d, ds.isEmpty⟩
      (m.contPieces ds) := by
  refine ⟨by simp [ChunkBasicHeader.serialize_ne_nil], fun rest => ?_⟩
  obtain ⟨hd, hds⟩ := cut_eq_cons hc hcut
  have hdlen : d.length = min (m.payload.length - r) c := by
    rw [hd, List.length_take, List.length_drop, min_comm]
  obtain ⟨p', hrun, hsz, hbuf, hstreams⟩ :=
    parseChunk_piece (t := t) (r := r) hts hsize hr hrle hh hdlen rest
  have hother : ∀ s, s ≠ m.chunkStreamId → p'.streams s = p.streams s := by
    intro s hs
    rw [hstreams, Function.update_of_ne hs]
  rw [List.length_drop] at hds
  rcases hds with ⟨rfl, hle⟩ | ⟨rfl, hlt⟩
  · -- the last chunk
    have hlast : r + d.length = m.payload.length := by omega
    rw [if_pos hlast] at hrun hbuf hstreams
    refine ⟨p', hrun, hsz, hbuf, ?_, hother⟩
    simp [Progress.after, Tracks, hstreams]
  · -- more to come
    have hmore : r + d.length ≠ m.payload.length := by omega
    have hne : (cut c ((m.payload.drop r).drop c)).isEmpty = false := by
      simpa using cut_ne_nil hc ((m.payload.drop r).drop c)
    rw [if_neg hmore] at hrun hbuf hstreams
    refine ⟨p', ?_, hsz, ?_, ?_, hother⟩
    · rw [hrun, hne]; rfl
    · rw [hbuf, hne]; rfl
    · simp only [Progress.after, hne, Bool.false_eq_true, if_false, Tracks]
      refine ⟨r + d.length, by omega, by rw [hstreams, Function.update_self], ?_⟩
      rw [List.drop_drop, show r + c = r + d.length by omega]

/-- The first chunk of a message, on an idle chunk stream. -/
theorem pieceStep_start {p : ChunkStreamParser} {m : Message} {c : ℕ} {q : Piece}
    {ps : List Piece} (hc : 1 ≤ c) (hts : m.timestamp < 0xFFFFFF) (hsize : p.chunkSize = c)
    (hidle : Tracks c p m.chunkStreamId .idle) (hpieces : m.pieces c = q :: ps) :
    PieceStep c p m q ps := by
  unfold Message.pieces at hpieces
  split at hpieces
  · simp at hpieces
  · rename_i d ds hcut
    obtain ⟨rfl, rfl⟩ := List.cons.inj hpieces
    have hh : Reads (ChunkStreamParser.readHeader ⟨.type0, m.chunkStreamId⟩
        (p.streams m.chunkStreamId)) (m.header.serialize .type0) m.header :=
      m.header.reads_serialize_type0 m.timestamp_lt
        (by rw [m.header_messageLength]; exact m.payload_le) rfl m.msid_lt rfl
    exact pieceStep_of_cut hc hts hsize hidle (Nat.zero_le _) hh hcut

/-- A continuation chunk. -/
theorem pieceStep_cont {p : ChunkStreamParser} {m : Message} {c : ℕ} {q : Piece}
    {ps : List Piece} (hc : 1 ≤ c) (hts : m.timestamp < 0xFFFFFF) (hsize : p.chunkSize = c)
    (hbusy : Tracks c p m.chunkStreamId (.busy m (q :: ps))) : PieceStep c p m q ps := by
  obtain ⟨r, hr, hstream, hps⟩ := hbusy
  cases hcut : cut c (m.payload.drop r) with
  | nil => exact absurd hcut (cut_ne_nil hc _)
  | cons d ds =>
      rw [hcut, Message.contPieces] at hps
      obtain ⟨rfl, rfl⟩ := List.cons.inj hps
      have hh : Reads (ChunkStreamParser.readHeader ⟨.type3, m.chunkStreamId⟩
          (p.streams m.chunkStreamId)) [] m.header := by
        rw [hstream]
        exact Reads.pure _
      have hstep := pieceStep_of_cut hc hts hsize (by rw [hstream]) hr.le hh hcut
      rwa [List.append_nil] at hstep

/-! ### A whole schedule -/

/-- What parsing the bytes of a schedule, with anything behind them, is to give: the run of the
single-buffer demultiplexer, and a parser that tracks the sender's new progress. -/
def ParsesAs (c : ℕ) (p : ChunkStreamParser) (s : List (Message × Piece)) (T' : ℕ → Progress) :
    Prop :=
  ∀ tail, match sharedRun p.currentMessage s with
    | .error e => p.parseAll ((s.flatMap fun x => x.2.wire) ++ tail) = .error e
    | .ok (rs, buf) => ∃ p', p'.chunkSize = c ∧ p'.currentMessage = buf ∧
        (∀ id, Tracks c p' id (T' id)) ∧
        p.parseAll ((s.flatMap fun x => x.2.wire) ++ tail) = (p'.parseAll tail).map (rs ++ ·)

/-- One chunk, then the rest of the schedule. -/
theorem ParsesAs.cons {c : ℕ} {T T' : ℕ → Progress} {m : Message} {q : Piece} {ps : List Piece}
    {s : List (Message × Piece)} {p : ChunkStreamParser} (hq : PieceStep c p m q ps)
    (htrack : ∀ id, Tracks c p id (T id))
    (ih : ∀ {p : ChunkStreamParser}, p.chunkSize = c →
      (∀ id, Tracks c p id (Function.update T m.chunkStreamId (.after m q ps) id)) →
      ParsesAs c p s T') :
    ParsesAs c p ((m, q) :: s) T' := by
  intro tail
  obtain ⟨hne, hq⟩ := hq
  obtain ⟨p', hrun, hsize, hbuf, hafter, hother⟩ := hq ((s.flatMap fun x => x.2.wire) ++ tail)
  have htrack' : ∀ id, Tracks c p' id (Function.update T m.chunkStreamId (.after m q ps) id) := by
    intro id
    by_cases hid : id = m.chunkStreamId
    · subst hid
      rw [Function.update_self]
      exact hafter
    · rw [Function.update_of_ne hid]
      have := htrack id
      cases hT : T id with
      | idle => simpa [Tracks, hT, hother id hid] using this
      | busy m' ps' => simpa [Tracks, hT, hother id hid] using this
  have hrest := ih hsize htrack' tail
  -- the parser's call and the demultiplexer's step give the same result `x`
  have hcall : ∀ r : Option (List UInt8),
      p.parseChunk (q.wire ++ ((s.flatMap fun x => x.2.wire) ++ tail)) =
        (.ok r, p', (s.flatMap fun x => x.2.wire) ++ tail) →
      match (sharedRun p'.currentMessage s).map (prepend [r]) with
      | .error e => p.parseAll (q.wire ++ ((s.flatMap fun x => x.2.wire) ++ tail)) = .error e
      | .ok (rs, buf) => ∃ p'', p''.chunkSize = c ∧ p''.currentMessage = buf ∧
          (∀ id, Tracks c p'' id (T' id)) ∧
          p.parseAll (q.wire ++ ((s.flatMap fun x => x.2.wire) ++ tail))
            = (p''.parseAll tail).map (rs ++ ·) := by
    intro r hr
    rw [ChunkStreamParser.parseAll_of_ok hr]
    cases hshared : sharedRun p'.currentMessage s with
    | error e =>
        simp only [hshared] at hrest
        simp [Except.map, hrest]
    | ok x =>
        obtain ⟨rs, buf⟩ := x
        simp only [hshared] at hrest
        obtain ⟨p'', hsize', hbuf', htr', hall⟩ := hrest
        refine ⟨p'', hsize', hbuf', htr', ?_⟩
        rw [hall]
        cases p''.parseAll tail <;> rfl
  rw [List.flatMap_cons, List.append_assoc]
  cases hl : q.last with
  | false =>
      rw [hl, if_neg (by simp)] at hrun hbuf
      simp only [sharedRun, hl, Bool.false_eq_true, if_false]
      have h := hcall none hrun
      rwa [hbuf] at h
  | true =>
      rw [hl, if_pos rfl] at hrun hbuf
      simp only [sharedRun, hl, if_true]
      cases hdel : deliver m (p.currentMessage ++ q.data) with
      | error e =>
          rw [hdel] at hrun
          exact ChunkStreamParser.parseAll_of_error (by simp [hne]) hrun
      | ok r =>
          rw [hdel] at hrun
          have h := hcall r hrun
          rwa [hbuf] at h

/-- **The parser is the single-buffer demultiplexer**: on every schedule of messages with
timestamps below `0xFFFFFF`, from any state that tracks the sender's progress. -/
theorem parseAll_schedule {c : ℕ} (hc : 1 ≤ c) {T T' : ℕ → Progress}
    {s : List (Message × Piece)} (hs : Schedule c T s T') :
    ∀ {p : ChunkStreamParser}, p.chunkSize = c → (∀ id, Tracks c p id (T id)) →
      (∀ x ∈ s, x.1.timestamp < 0xFFFFFF) → ParsesAs c p s T' := by
  induction hs with
  | nil T =>
      intro p hsize htrack _ tail
      refine ⟨p, hsize, rfl, htrack, ?_⟩
      cases h : p.parseAll tail <;> simp [h, Except.map]
  | @start T T' m q ps s hidle hpieces _ ih =>
      intro p hsize htrack hts
      have hq := pieceStep_start hc (hts (m, q) (by simp)) hsize (hidle ▸ htrack _) hpieces
      exact ParsesAs.cons hq htrack fun hsz htr => ih hsz htr fun x hx => hts x (by simp [hx])
  | @cont T T' m q ps s hbusy _ ih =>
      intro p hsize htrack hts
      have hq := pieceStep_cont hc (hts (m, q) (by simp)) hsize (hbusy ▸ htrack _)
      exact ParsesAs.cons hq htrack fun hsz htr => ih hsz htr fun x hx => hts x (by simp [hx])

/-! ### Messages one after another -/

/-- The chunks of a message with their owner. -/
def Message.owned (c : ℕ) (m : Message) : List (Message × Piece) :=
  (m.pieces c).map fun q => (m, q)

theorem Progress.after_last {m : Message} {q : Piece} {ps : List Piece} (h : q.last = true) :
    Progress.after m q ps = .idle := by
  rw [Progress.after, if_pos h]

theorem Progress.after_more {m : Message} {q : Piece} {ps : List Piece} (h : q.last = false) :
    Progress.after m q ps = .busy m ps := by
  rw [Progress.after, h]
  rfl

/-- The remaining chunks of a message, when nothing comes between them, are a schedule. -/
theorem schedule_contPieces {c : ℕ} {m : Message} {s : List (Message × Piece)}
    {T' : ℕ → Progress} : ∀ {ds : List (List UInt8)} {T : ℕ → Progress}, ds ≠ [] →
      T m.chunkStreamId = .busy m (m.contPieces ds) →
      Schedule c (Function.update T m.chunkStreamId .idle) s T' →
      Schedule c T ((m.contPieces ds).map (fun q => (m, q)) ++ s) T' := by
  intro ds
  induction ds with
  | nil => intro T hne; exact absurd rfl hne
  | cons d ds ih =>
      intro T _ hT hs
      refine Schedule.cont hT ?_
      cases ds with
      | nil => rwa [Progress.after_last rfl]
      | cons d' ds =>
          rw [Progress.after_more rfl]
          refine ih (by simp) (Function.update_self ..) ?_
          rwa [Function.update_idem]

/-- A whole message on an idle chunk stream. -/
theorem schedule_owned {c : ℕ} (hc : 1 ≤ c) {m : Message} {s : List (Message × Piece)}
    {T T' : ℕ → Progress} (hT : T m.chunkStreamId = .idle) (hs : Schedule c T s T') :
    Schedule c T (m.owned c ++ s) T' := by
  have hidle : Function.update T m.chunkStreamId .idle = T := by
    rw [← hT, Function.update_eq_self]
  unfold Message.owned
  cases hcut : cut c m.payload with
  | nil => exact absurd hcut (cut_ne_nil hc _)
  | cons d ds =>
      have hpieces : m.pieces c = ⟨m.firstHead ++ d, d, ds.isEmpty⟩ :: m.contPieces ds := by
        simp only [Message.pieces, hcut]
      rw [hpieces]
      refine Schedule.start hT hpieces ?_
      cases ds with
      | nil => rwa [Progress.after_last rfl, hidle]
      | cons d' ds =>
          rw [Progress.after_more rfl]
          refine schedule_contPieces (by simp) (Function.update_self ..) ?_
          rwa [Function.update_idem, hidle]

/-- Messages one after another are a schedule, whatever their chunk streams. -/
theorem schedule_flatMap_owned {c : ℕ} (hc : 1 ≤ c) (ms : List Message) :
    Schedule c (fun _ => .idle) (ms.flatMap (Message.owned c)) (fun _ => .idle) := by
  induction ms with
  | nil => exact Schedule.nil _
  | cons m ms ih =>
      rw [List.flatMap_cons]
      exact schedule_owned hc rfl ih

/-- The continuation chunks end with the one marked last. -/
theorem Message.contPieces_split (m : Message) : ∀ {ds : List (List UInt8)}, ds ≠ [] →
    ∃ front final, m.contPieces ds = front ++ [final] ∧ (∀ q ∈ front, q.last = false) ∧
      final.last = true ∧ front.map Piece.data ++ [final.data] = ds ∧
      front.map Piece.data = ds.dropLast := by
  intro ds
  induction ds with
  | nil => intro h; exact absurd rfl h
  | cons d ds ih =>
      intro _
      cases ds with
      | nil => exact ⟨[], _, rfl, by simp, rfl, rfl, rfl⟩
      | cons d' ds =>
          obtain ⟨front, final, hsplit, hfront, hfinal, hdata, hdrop⟩ := ih (by simp)
          refine ⟨⟨m.contHead ++ d, d, false⟩ :: front, final, ?_, ?_, hfinal, ?_, ?_⟩
          · rw [Message.contPieces, hsplit]
            rfl
          · intro q hq
            rcases List.mem_cons.1 hq with rfl | hq
            · rfl
            · exact hfront q hq
          · rw [List.map_cons, List.cons_append, hdata]
          · rw [List.map_cons, hdrop]
            rfl

/-- **The shape of a message on the wire**: full chunks, then the one marked last, and their data
is the payload. -/
theorem Message.pieces_split (m : Message) {c : ℕ} (hc : 1 ≤ c) :
    ∃ front final, m.pieces c = front ++ [final] ∧
      (∀ q ∈ front, q.last = false ∧ q.data.length = c) ∧ final.last = true ∧
      front.flatMap Piece.data ++ final.data = m.payload := by
  -- the data of the chunks are the pieces of the payload
  have hshape : ∃ front final, m.pieces c = front ++ [final] ∧ (∀ q ∈ front, q.last = false) ∧
      final.last = true ∧ front.map Piece.data ++ [final.data] = cut c m.payload ∧
      front.map Piece.data = (cut c m.payload).dropLast := by
    unfold Message.pieces
    cases hcut : cut c m.payload with
    | nil => exact absurd hcut (cut_ne_nil hc _)
    | cons d ds =>
        cases ds with
        | nil => exact ⟨[], _, rfl, by simp, rfl, rfl, rfl⟩
        | cons d' ds =>
            have hne : d' :: ds ≠ [] := by simp
            obtain ⟨front, final, hsplit, hfront, hfinal, hdata, hdrop⟩ := m.contPieces_split hne
            refine ⟨⟨m.firstHead ++ d, d, false⟩ :: front, final, ?_, ?_, hfinal, ?_, ?_⟩
            · simp only [hsplit]
              rfl
            · intro q hq
              rcases List.mem_cons.1 hq with rfl | hq
              · rfl
              · exact hfront q hq
            · rw [List.map_cons, List.cons_append, hdata]
            · rw [List.map_cons, hdrop]
              rfl
  obtain ⟨front, final, hsplit, hfront, hfinal, hdata, hdrop⟩ := hshape
  refine ⟨front, final, hsplit, ?_, hfinal, ?_⟩
  · intro q hq
    refine ⟨hfront q hq, length_of_mem_dropLast_cut hc m.payload q.data ?_⟩
    rw [← hdrop]
    exact List.mem_map_of_mem hq
  · rw [← flatten_cut hc m.payload, ← hdata, List.flatten_append, List.flatMap_def]
    simp

/-- **The first completed message of a run**: chunks that complete nothing, then one that does. -/
theorem sharedRun_append_last {pre s : List (Message × Piece)} {x : Message × Piece}
    (hpre : ∀ y ∈ pre, y.2.last = false) (hx : x.2.last = true) : ∀ buf : List UInt8,
    sharedRun buf (pre ++ x :: s) =
      match deliver x.1 (buf ++ pre.flatMap (fun y => y.2.data) ++ x.2.data) with
      | .error e => .error e
      | .ok r => (sharedRun [] s).map (prepend ((pre.map fun _ => none) ++ [r])) := by
  induction pre with
  | nil =>
      intro buf
      rw [List.nil_append, sharedRun, if_pos hx]
      simp only [List.flatMap_nil, List.append_nil]
      rfl
  | cons y pre ih =>
      intro buf
      have hy : y.2.last = false := hpre y (by simp)
      rw [List.cons_append, sharedRun, hy, if_neg (by simp), ih fun z hz => hpre z (by simp [hz])]
      simp only [List.flatMap_cons, List.append_assoc]
      cases deliver x.1 (buf ++ (y.2.data ++ (List.flatMap (fun y => y.2.data) pre ++ x.2.data)))
        with
      | error e => rfl
      | ok r => cases sharedRun [] s <;> rfl

/-- A message the parser's own handling accepts: a WindowAckSize needs a window of four bytes. -/
def Message.Deliverable (m : Message) : Prop :=
  m.messageType = .windowAckSize → 4 ≤ m.payload.length

instance (m : Message) : Decidable m.Deliverable :=
  inferInstanceAs (Decidable (m.messageType = .windowAckSize → 4 ≤ m.payload.length))

/-- What is delivered is the buffer. -/
theorem deliver_eq_of_ok {m : Message} {buf : List UInt8} {r : Option (List UInt8)}
    (h : deliver m buf = .ok r) : r = some buf := by
  simp only [deliver] at h
  split at h
  · simp at h
  · exact (Except.ok.inj h).symm

theorem deliver_payload_iff {m : Message} :
    deliver m m.payload = .ok (some m.payload) ↔ m.Deliverable := by
  simp only [deliver, Message.Deliverable]
  split
  · rename_i h
    simp only [reduceCtorEq, false_iff, not_forall]
    exact ⟨h.1, by omega⟩
  · rename_i h
    simp only [true_iff]
    intro hw
    by_contra hlt
    exact h ⟨hw, by omega⟩

/-- **A message whose chunks come together**, from an empty buffer: its payload is delivered at
its last chunk, or the run ends with the error of an undeliverable one. -/
theorem sharedRun_owned {m : Message} {c : ℕ} (hc : 1 ≤ c) (s : List (Message × Piece)) :
    sharedRun [] (m.owned c ++ s) =
      match deliver m m.payload with
      | .error e => .error e
      | .ok _ => (sharedRun [] s).map (prepend ((m.pieces c).map m.expected)) := by
  obtain ⟨front, final, hsplit, hfront, hfinal, hdata⟩ := m.pieces_split hc
  have hmore : ∀ y ∈ front.map (fun q => (m, q)), y.2.last = false := by
    intro y hy
    obtain ⟨q, hq, rfl⟩ := List.mem_map.1 hy
    exact (hfront q hq).1
  have hrun := sharedRun_append_last (s := s) (x := (m, final)) hmore hfinal []
  have hflat : (front.map fun q => (m, q)).flatMap (fun y => y.2.data) ++ final.data
      = m.payload := by
    rw [List.flatMap_map]
    exact hdata
  have hexp : (m.pieces c).map m.expected
      = ((front.map fun q => (m, q)).map fun _ => none) ++ [some m.payload] := by
    rw [hsplit, List.map_append, List.map_map]
    congr 1
    · refine List.map_congr_left ?_
      intro q hq
      simp [Message.expected, (hfront q hq).1]
    · simp [Message.expected, hfinal]
  rw [Message.owned, hsplit, List.map_append, List.append_assoc, List.map_singleton,
    List.singleton_append, hrun, List.nil_append, hflat, ← hsplit, hexp]
  cases hdel : deliver m m.payload with
  | error e => rfl
  | ok r =>
      rw [deliver_eq_of_ok hdel]

/-- Deliverable messages one after another are all delivered. -/
theorem sharedRun_flatMap_owned {c : ℕ} (hc : 1 ≤ c) {ms : List Message}
    (h : ∀ m ∈ ms, m.Deliverable) :
    sharedRun [] (ms.flatMap (Message.owned c)) =
      .ok (ms.flatMap fun m => (m.pieces c).map m.expected, []) := by
  induction ms with
  | nil => rfl
  | cons m ms ih =>
      rw [List.flatMap_cons, sharedRun_owned hc, deliver_payload_iff.2 (h m (by simp)),
        ih fun m' hm' => h m' (by simp [hm'])]
      rfl

end Rtmp

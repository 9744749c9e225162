/-
**A conforming RTMP receiver, and what it makes of a push session.**

The receiver follows the chunk rules of RTMP: it starts with chunk size 128, keeps a header and the
bytes in flight for every chunk stream, and applies a SetChunkSize message from the next chunk on.
It is a specification, written independently of `ChunkStreamParser`; only the reading of the basic
header and of the timestamp field is shared.

The receiver is fair: messages written with the chunk size it is using are all recovered.  A push
session never is.  `connect` announces chunk size 65536 and then writes the connect command in
chunks of 128 bytes; the receiver takes the continuation headers for data.

Main definitions:

* `Rtmp.Peer`, `Rtmp.Peer.readChunk`, `Rtmp.Peer.recover` — the receiver;
* `Rtmp.ChunkedWrite.received` — the message a call of `write_chunked` is meant to deliver.

Main results:

* `Rtmp.Peer.recover_agreed` — **messages written with the size in force are recovered**;
* `Rtmp.Peer.not_recover_session` — **no session of the push client is**.
-/

import MibeeEye.RtmpPushClient

set_option relaxedAutoImplicit false
set_option autoImplicit false

namespace Rtmp

open Wire

/-! ### The receiver -/

/-- What a chunk stream remembers of the last message header. -/
structure PeerHeader where
  timestamp : ℕ
  /-- The difference to the next timestamp when a Type 3 chunk starts a message. -/
  delta : ℕ
  length : ℕ
  messageType : UInt8
  messageStreamId : ℕ
  extended : Bool

/-- A chunk stream: its last header, and the bytes of the message in flight if there is one. -/
structure PeerStream where
  header : Option PeerHeader := none
  inFlight : Option (List UInt8) := none

/-- The receiver of one connection. -/
structure Peer where
  chunkSize : ℕ := 128
  streams : ℕ → PeerStream := fun _ => {}

/-- A message the receiver has put together. -/
structure Received where
  chunkStreamId : ℕ
  messageType : UInt8
  messageStreamId : ℕ
  timestamp : ℕ
  payload : List UInt8
  deriving DecidableEq, Repr

namespace Peer

/-- The extended timestamp that a chunk without a header of its own repeats. -/
def skipTimestamp (h : PeerHeader) : Reader String Unit := do
  let _ ← readExact "extended timestamp" (if h.extended then 4 else 0)
  return ()

/-- The header a chunk stands for.  Inside a message only Type 3 chunks follow; between messages
each type takes over what it leaves out. -/
def readHeader (t : ChunkType) (st : PeerStream) : Reader String PeerHeader :=
  match st.inFlight, st.header, t with
  | some _, some h, .type3 => do
      skipTimestamp h
      return h
  | some _, _, _ => .fail "message header inside a message"
  | none, _, .type0 => do
      let buf ← readExact "Type 0 header" 11
      let (timestamp, extended) ← ChunkMessageHeader.readTimestamp (ofBe (slice buf 0 3))
      return {
        timestamp, extended
        delta := timestamp
        length := ofBe (slice buf 3 6)
        messageType := (buf.drop 6).headD 0
        messageStreamId := ofLe (slice buf 7 11) }
  | none, some h, .type1 => do
      let buf ← readExact "Type 1 header" 7
      let (delta, extended) ← ChunkMessageHeader.readTimestamp (ofBe (slice buf 0 3))
      return { h with
        delta, extended
        timestamp := (h.timestamp + delta) % 2 ^ 32
        length := ofBe (slice buf 3 6)
        messageType := (buf.drop 6).headD 0 }
  | none, some h, .type2 => do
      let buf ← readExact "Type 2 header" 3
      let (delta, extended) ← ChunkMessageHeader.readTimestamp (ofBe (slice buf 0 3))
      return { h with delta, extended, timestamp := (h.timestamp + delta) % 2 ^ 32 }
  | none, some h, .type3 => do
      skipTimestamp h
      return { h with timestamp := (h.timestamp + h.delta) % 2 ^ 32 }
  | none, none, _ => .fail "no previous header"

/-- The chunk size after a message: SetChunkSize changes it. -/
def chunkSizeAfter (c : ℕ) (messageType : UInt8) (payload : List UInt8) : ℕ :=
  let size := ofBe (payload.take 4) % 2 ^ 31
  if messageType = MessageType.setChunkSize.toU8 ∧ payload.length = 4 ∧ 1 ≤ size then size else c

/-- The receiver after data of a chunk: a complete message is handed out. -/
def advance (p : Peer) (csid : ℕ) (h : PeerHeader) (got : List UInt8) : Option Received × Peer :=
  if h.length ≤ got.length then
    (some ⟨csid, h.messageType, h.messageStreamId, h.timestamp, got⟩,
      { chunkSize := chunkSizeAfter p.chunkSize h.messageType got
        streams := Function.update p.streams csid ⟨some h, none⟩ })
  else (none, { p with streams := Function.update p.streams csid ⟨some h, some got⟩ })

/-- One chunk off the front of the bytes; `none` when they do not start with a whole chunk. -/
def readChunk (p : Peer) (bs : List UInt8) : Option (Option Received × Peer × List UInt8) :=
  match ChunkBasicHeader.parse bs with
  | (.error _, _) => none
  | (.ok basic, rest) =>
      let st := p.streams basic.chunkStreamId
      match readHeader basic.chunkType st rest with
      | (.error _, _) => none
      | (.ok h, rest) =>
          let got := st.inFlight.getD []
          let n := min (h.length - got.length) p.chunkSize
          if rest.length < n then none
          else
            let (r, p) := p.advance basic.chunkStreamId h (got ++ rest.take n)
            some (r, p, rest.drop n)

/-- The messages recovered from the bytes, as far as they can be read. -/
@[grind =] def recoverF : ℕ → Peer → List UInt8 → List Received
  | 0, _, _ => []
  | fuel + 1, p, bs =>
      match p.readChunk bs with
      | none => []
      | some (r, p, rest) => r.toList ++ recoverF fuel p rest

/-- **The messages the receiver recovers from the bytes.** -/
def recover (p : Peer) (bs : List UInt8) : List Received := recoverF bs.length p bs

end Peer

/-- The message that a call of `write_chunked` is meant to deliver. -/
def ChunkedWrite.received (w : ChunkedWrite) : Received :=
  ⟨w.chunkStreamId, w.messageType.toU8, w.messageStreamId, w.timestamp, w.data⟩

/-- The same for a message. -/
def Message.received (m : Message) : Received :=
  ⟨m.chunkStreamId, m.messageType.toU8, m.messageStreamId, m.timestamp, m.payload⟩

namespace Peer

/-! ### One chunk at a time -/

theorem consumes_skipTimestamp (h : PeerHeader) : Consumes (skipTimestamp h) 0 :=
  ((consumes_readExact _ _).bind fun _ => Consumes.pure _).mono (Nat.zero_le _)

theorem consumes_readHeader (t : ChunkType) (st : PeerStream) : Consumes (readHeader t st) 0 := by
  unfold readHeader
  split
  · exact Consumes.bind (m := 0) (n := 0) (consumes_skipTimestamp _) fun _ => Consumes.pure _
  · exact Consumes.fail _ _
  · refine Consumes.mono (n := 11 + 0) (Consumes.bind (consumes_readExact _ 11) fun _ => ?_)
      (Nat.zero_le _)
    exact Consumes.bind (m := 0) (n := 0) (ChunkStreamParser.consumes_readTimestamp _) fun _ =>
      Consumes.pure _
  · refine Consumes.mono (n := 7 + 0) (Consumes.bind (consumes_readExact _ 7) fun _ => ?_)
      (Nat.zero_le _)
    exact Consumes.bind (m := 0) (n := 0) (ChunkStreamParser.consumes_readTimestamp _) fun _ =>
      Consumes.pure _
  · refine Consumes.mono (n := 3 + 0) (Consumes.bind (consumes_readExact _ 3) fun _ => ?_)
      (Nat.zero_le _)
    exact Consumes.bind (m := 0) (n := 0) (ChunkStreamParser.consumes_readTimestamp _) fun _ =>
      Consumes.pure _
  · exact Consumes.bind (m := 0) (n := 0) (consumes_skipTimestamp _) fun _ => Consumes.pure _
  · exact Consumes.fail _ _

/-- **What reading a chunk can do**: data is appended to what is in flight on its chunk stream. -/
theorem readChunk_cases {p p' : Peer} {bs rest : List UInt8} {r : Option Received}
    (h : p.readChunk bs = some (r, p', rest)) :
    ∃ basic hd header mid data, ChunkBasicHeader.parse bs = (.ok basic, hd) ∧
      readHeader basic.chunkType (p.streams basic.chunkStreamId) hd = (.ok header, mid) ∧
      mid = data ++ rest ∧ rest.length < bs.length ∧
      (r, p') = p.advance basic.chunkStreamId header
        ((p.streams basic.chunkStreamId).inFlight.getD [] ++ data) := by
  unfold readChunk at h
  split at h
  · cases h
  · rename_i basic hd hbasic
    dsimp only at h
    split at h
    · cases h
    · rename_i header mid hheader
      split at h
      · cases h
      · obtain ⟨rfl, rfl, rfl⟩ := by simpa using h
        have e₁ := ChunkStreamParser.consumes_basicHeader _ _ _ hbasic
        have e₂ := consumes_readHeader _ _ _ _ _ hheader
        refine ⟨basic, hd, header, mid, _, hbasic, hheader, (List.take_append_drop _ mid).symm, ?_, rfl⟩
        rw [List.length_drop]
        omega

theorem recoverF_eq_recover : ∀ (n fuel : ℕ) (p : Peer) (bs : List UInt8), bs.length = n →
    n ≤ fuel → recoverF fuel p bs = recover p bs := by
  intro n
  induction n using Nat.strong_induction_on with
  | _ n ih =>
      intro fuel p bs hn hfuel
      cases bs with
      | nil =>
          cases fuel with
          | zero => rfl
          | succ fuel => rfl
      | cons b bs =>
          rw [List.length_cons] at hn
          obtain ⟨fuel, rfl⟩ : ∃ k, fuel = k + 1 := ⟨fuel - 1, by omega⟩
          rw [recover, List.length_cons, recoverF, recoverF]
          cases hrun : p.readChunk (b :: bs) with
          | none => rfl
          | some x =>
              obtain ⟨r, p', rest⟩ := x
              obtain ⟨-, -, -, -, -, -, -, -, hlt, -⟩ := readChunk_cases hrun
              rw [List.length_cons] at hlt
              dsimp only
              rw [ih rest.length (by omega) fuel p' rest rfl (by omega),
                ih rest.length (by omega) bs.length p' rest rfl (by omega)]

@[simp] theorem recover_nil (p : Peer) : p.recover [] = [] := rfl

/-- One chunk, then the rest. -/
theorem recover_of_readChunk {p p' : Peer} {bs rest : List UInt8} {r : Option Received}
    (h : p.readChunk bs = some (r, p', rest)) : p.recover bs = r.toList ++ p'.recover rest := by
  obtain ⟨-, -, -, -, -, -, -, -, hlt, -⟩ := readChunk_cases h
  cases bs with
  | nil => simp at hlt
  | cons b bs =>
      rw [List.length_cons] at hlt
      rw [recover, List.length_cons, recoverF, h]
      dsimp only
      rw [recoverF_eq_recover rest.length bs.length p' rest rfl (by omega)]

/-- A chunk that is all there. -/
theorem readChunk_of_reads {p : Peer} {basic : ChunkBasicHeader} {header : PeerHeader}
    {b h data : List UInt8} (hb : Reads ChunkBasicHeader.parse b basic)
    (hh : Reads (readHeader basic.chunkType (p.streams basic.chunkStreamId)) h header)
    (hlen : data.length = min
      (header.length - ((p.streams basic.chunkStreamId).inFlight.getD []).length) p.chunkSize)
    (rest : List UInt8) :
    p.readChunk (b ++ h ++ data ++ rest) =
      let x := p.advance basic.chunkStreamId header
        ((p.streams basic.chunkStreamId).inFlight.getD [] ++ data)
      some (x.1, x.2, rest) := by
  rw [readChunk, List.append_assoc, List.append_assoc, hb]
  simp only [hh (data ++ rest), ← hlen]
  rw [if_neg (by simp), List.take_left, List.drop_left]

/-! ### Messages written with the size in force -/

/-- The header a receiver reads from what `write_chunked` writes. -/
def headerOf (msgType : MessageType) (messageStreamId timestamp : ℕ) (data : List UInt8) :
    PeerHeader where
  timestamp := timestamp
  delta := timestamp
  length := min (data.length % 2 ^ 32) 0xFFFFFF
  messageType := msgType.toU8
  messageStreamId := messageStreamId
  extended := decide (0xFFFFFF ≤ timestamp)

/-- **The header of `write_chunked` is read** on a chunk stream that is between messages. -/
theorem reads_written (msgType : MessageType) {messageStreamId timestamp : ℕ} (data : List UInt8)
    {st : PeerStream} (hmsid : messageStreamId < 2 ^ 32) (hts : timestamp < 2 ^ 32)
    (hidle : st.inFlight = none) :
    Reads (readHeader .type0 st)
      ((writtenHeader msgType messageStreamId timestamp data).serialize .type0)
      (headerOf msgType messageStreamId timestamp data) := by
  set w := writtenHeader msgType messageStreamId timestamp data with hw
  obtain ⟨buf, hser, hbuf_len, hfield, hlength, htype, hstream⟩ :=
    w.serialize_type0_fields rfl hmsid
  have htime : Reads (ChunkMessageHeader.readTimestamp (ofBe (slice buf 0 3))) w.extendedField
      (timestamp, w.extended) := by
    rw [hfield]
    exact w.reads_timestamp hts rfl
  unfold readHeader
  rw [hidle, hser]
  refine Reads.bind (reads_readExact _ hbuf_len) (htime.bind_last ?_)
  rw [hlength, htype, hstream]
  rfl

/-- The header of a message, as the receiver reads it. -/
def headerOfMessage (m : Message) : PeerHeader :=
  headerOf m.messageType m.messageStreamId m.timestamp m.payload

theorem headerOfMessage_length (m : Message) : (headerOfMessage m).length = m.payload.length := by
  have := m.payload_le
  simp only [headerOfMessage, headerOf]
  omega

/-- The receiver after a whole message. -/
def finished (p : Peer) (m : Message) : Peer where
  chunkSize := chunkSizeAfter p.chunkSize m.messageType.toU8 m.payload
  streams := Function.update p.streams m.chunkStreamId ⟨some (headerOfMessage m), none⟩

/-- The receiver when `r` bytes of a message have arrived. -/
def receiving (p : Peer) (m : Message) (r : ℕ) : Peer where
  chunkSize := p.chunkSize
  streams := Function.update p.streams m.chunkStreamId
    ⟨some (headerOfMessage m), some (m.payload.take r)⟩

theorem finished_receiving (p : Peer) (m : Message) (r : ℕ) :
    (p.receiving m r).finished m = p.finished m := by
  simp [finished, receiving]

theorem receiving_receiving (p : Peer) (m : Message) (r r' : ℕ) :
    (p.receiving m r).receiving m r' = p.receiving m r' := by
  simp [receiving]

/-- **One chunk of a message** of which `r` bytes have arrived. -/
theorem readChunk_piece {p : Peer} {m : Message} {t : ChunkType} {r : ℕ} {h : List UInt8}
    (hgot : (p.streams m.chunkStreamId).inFlight.getD [] = m.payload.take r)
    (hr : r ≤ m.payload.length)
    (hh : Reads (readHeader t (p.streams m.chunkStreamId)) h (headerOfMessage m))
    (rest : List UInt8) :
    p.readChunk (ChunkBasicHeader.serialize ⟨t, m.chunkStreamId⟩ ++ h ++
        (m.payload.drop r).take p.chunkSize ++ rest) =
      if m.payload.length ≤ r + p.chunkSize then some (some m.received, p.finished m, rest)
      else some (none, p.receiving m (r + p.chunkSize), rest) := by
  have hbasic := ChunkBasicHeader.reads_serialize t m.csid_ge m.csid_le
  have hlen : ((m.payload.drop r).take p.chunkSize).length = min ((headerOfMessage m).length -
      ((p.streams m.chunkStreamId).inFlight.getD []).length) p.chunkSize := by
    rw [headerOfMessage_length, hgot, List.length_take, List.length_drop, List.length_take]
    omega
  have hdata : m.payload.take r ++ (m.payload.drop r).take p.chunkSize
      = m.payload.take (r + p.chunkSize) := List.take_add.symm
  rw [readChunk_of_reads hbasic hh hlen rest, hgot, hdata, advance, headerOfMessage_length,
    List.length_take]
  by_cases hdone : m.payload.length ≤ r + p.chunkSize
  · rw [if_pos (by omega), if_pos hdone, List.take_of_length_le hdone]
    rfl
  · rw [if_neg (by omega), if_neg hdone]
    rfl

/-- The continuation chunks of a message of which `r` bytes have arrived. -/
theorem recover_contPieces {m : Message} {c : ℕ} (hc : 1 ≤ c) (hts : m.timestamp < 0xFFFFFF)
    (rest : List UInt8) : ∀ (data : List UInt8) (p : Peer) (r : ℕ), p.chunkSize = c →
      data = m.payload.drop r → r ≤ m.payload.length →
      (p.receiving m r).recover ((m.contPieces (cut c data)).flatMap Piece.wire ++ rest) =
        m.received :: (p.finished m).recover rest := by
  have hext : (headerOfMessage m).extended = false := by
    simp only [headerOfMessage, headerOf, decide_eq_false_iff_not]
    omega
  have hcont : ∀ (p : Peer) (r : ℕ),
      Reads (readHeader .type3 ((p.receiving m r).streams m.chunkStreamId)) []
        (headerOfMessage m) := by
    intro p r rest
    simp only [receiving, Function.update_self, readHeader, skipTimestamp, hext]
    rfl
  have hgot : ∀ (p : Peer) (r : ℕ),
      ((p.receiving m r).streams m.chunkStreamId).inFlight.getD [] = m.payload.take r := by
    intro p r
    simp [receiving]
  intro data
  induction data using cut_induction hc with
  | short data h =>
      intro p r hsize hdata hr
      have hstep := readChunk_piece (p := p.receiving m r) (t := .type3) (hgot p r) hr (hcont p r) rest
      have hsize' : (p.receiving m r).chunkSize = c := hsize
      have hdone : m.payload.length ≤ r + c := by
        rw [hdata, List.length_drop] at h
        omega
      rw [hsize', ← hdata, List.take_of_length_le h, List.append_nil, if_pos hdone,
        finished_receiving] at hstep
      rw [cut_of_le h]
      simp only [Message.contPieces, List.flatMap_cons, List.flatMap_nil, List.append_nil]
      exact recover_of_readChunk hstep
  | long data h ih =>
      intro p r hsize hdata hr
      have hlt : c < m.payload.length - r := by rwa [hdata, List.length_drop] at h
      have hstep := readChunk_piece (p := p.receiving m r) (t := .type3) (hgot p r) hr (hcont p r)
        ((m.contPieces (cut c (data.drop c))).flatMap Piece.wire ++ rest)
      have hsize' : (p.receiving m r).chunkSize = c := hsize
      rw [hsize', ← hdata, List.append_nil, if_neg (by omega), receiving_receiving] at hstep
      rw [cut_of_lt hc h]
      simp only [Message.contPieces, Message.contHead, List.flatMap_cons, List.append_assoc]
        at hstep ⊢
      rw [recover_of_readChunk hstep]
      exact ih p (r + c) hsize (by rw [hdata, List.drop_drop]) (by omega)

/-- **A message written with the size in force is recovered**, and the receiver goes on behind
it. -/
theorem recover_message {p : Peer} {m : Message} {c : ℕ} (hc : 1 ≤ c) (hsize : p.chunkSize = c)
    (hidle : (p.streams m.chunkStreamId).inFlight = none) (hts : m.timestamp < 0xFFFFFF)
    (rest : List UInt8) :
    p.recover (m.wire c ++ rest) = m.received :: (p.finished m).recover rest := by
  have hgot : (p.streams m.chunkStreamId).inFlight.getD [] = m.payload.take 0 := by
    rw [hidle]
    rfl
  have hh := reads_written m.messageType m.payload m.msid_lt m.timestamp_lt hidle
  rw [m.wire_eq_pieces hc, Message.pieces]
  rcases Nat.lt_or_ge c m.payload.length with hlt | hle
  · have hstep := readChunk_piece (p := p) (t := .type0) hgot (Nat.zero_le _) hh
      ((m.contPieces (cut c (m.payload.drop c))).flatMap Piece.wire ++ rest)
    rw [hsize, if_neg (by omega), List.drop_zero, Nat.zero_add] at hstep
    rw [cut_of_lt hc hlt]
    simp only [List.flatMap_cons, List.append_assoc, Message.firstHead, Message.header] at hstep ⊢
    rw [recover_of_readChunk hstep]
    exact recover_contPieces hc hts rest _ p c hsize rfl hlt.le
  · have hstep := readChunk_piece (p := p) (t := .type0) hgot (Nat.zero_le _) hh rest
    rw [hsize, if_pos (by omega), List.drop_zero, List.take_of_length_le hle] at hstep
    rw [cut_of_le hle]
    simp only [List.flatMap_cons, List.flatMap_nil, List.append_nil, List.append_assoc,
      Message.contPieces, Message.firstHead, Message.header] at hstep ⊢
    exact recover_of_readChunk hstep

/-- A receiver with no message in flight. -/
def Between (p : Peer) : Prop := ∀ id, (p.streams id).inFlight = none

theorem Between.finished {p : Peer} (hp : p.Between) (m : Message) : (p.finished m).Between := by
  intro id
  by_cases hid : id = m.chunkStreamId
  · simp [Peer.finished, hid]
  · simp [Peer.finished, Function.update_of_ne hid, hp id]

theorem one_le_chunkSizeAfter {c : ℕ} (hc : 1 ≤ c) (t : UInt8) (payload : List UInt8) :
    1 ≤ chunkSizeAfter c t payload := by
  simp only [chunkSizeAfter]
  split
  · rename_i h
    exact h.2.2
  · exact hc

/-- Messages written one after another, each with the size in force. -/
def writeAgreed : ℕ → List Message → List UInt8
  | _, [] => []
  | c, m :: ms => m.wire c ++ writeAgreed (chunkSizeAfter c m.messageType.toU8 m.payload) ms

/-- **Messages written with the size in force are recovered**: the receiver is fair. -/
theorem recover_agreed : ∀ {ms : List Message} {p : Peer}, 1 ≤ p.chunkSize → p.Between →
    (∀ m ∈ ms, m.timestamp < 0xFFFFFF) →
    p.recover (writeAgreed p.chunkSize ms) = ms.map Message.received := by
  intro ms
  induction ms with
  | nil =>
      intro p _ _ _
      rfl
  | cons m ms ih =>
      intro p hc hp hts
      rw [writeAgreed, recover_message hc rfl (hp _) (hts m (by simp)), List.map_cons]
      have hrest := ih (p := p.finished m) (one_le_chunkSizeAfter hc _ _) (hp.finished m)
        fun m' hm' => hts m' (by simp [hm'])
      rw [← hrest]
      rfl

/-! ### What is in flight stays in front -/

/-- The first message recovered on a chunk stream starts with what was in flight there. -/
theorem recover_find_prefix {csid : ℕ} {pre : List UInt8} : ∀ (fuel : ℕ) {p : Peer}
    {bs got : List UInt8} {r : Received}, (p.streams csid).inFlight = some got → pre <+: got →
    (recoverF fuel p bs).find? (fun r => r.chunkStreamId = csid) = some r → pre <+: r.payload := by
  intro fuel
  induction fuel with
  | zero =>
      intro p bs got r _ _ hfind
      simp [recoverF] at hfind
  | succ fuel ih =>
      intro p bs got r hgot hpre hfind
      rw [recoverF] at hfind
      cases hrun : p.readChunk bs with
      | none =>
          rw [hrun] at hfind
          simp at hfind
      | some x =>
          obtain ⟨e, p', rest⟩ := x
          obtain ⟨basic, _, header, _, data, -, -, -, -, hadv⟩ := readChunk_cases hrun
          rw [hrun] at hfind
          dsimp only at hfind
          simp only [advance] at hadv
          by_cases hid : basic.chunkStreamId = csid
          · -- a chunk of the message in flight
            rw [hid, hgot, Option.getD_some] at hadv
            have hpre' : pre <+: got ++ data := hpre.trans (List.prefix_append _ _)
            split at hadv
            · obtain ⟨rfl, rfl⟩ := Prod.mk.inj hadv
              simp only [Option.toList_some, List.singleton_append, List.find?_cons, decide_true,
                Option.some.injEq] at hfind
              rw [← hfind]
              exact hpre'
            · obtain ⟨rfl, rfl⟩ := Prod.mk.inj hadv
              refine ih ?_ hpre' (by simpa using hfind)
              simp
          · -- another chunk stream
            have hother : ∀ st, (Function.update p.streams basic.chunkStreamId st csid).inFlight
                = some got := by
              intro st
              rw [Function.update_of_ne (fun h => hid h.symm), hgot]
            split at hadv
            · obtain ⟨rfl, rfl⟩ := Prod.mk.inj hadv
              exact ih (hother _) hpre (by simpa [hid] using hfind)
            · obtain ⟨rfl, rfl⟩ := Prod.mk.inj hadv
              exact ih (hother _) hpre (by simpa using hfind)

end Peer

/-! ### The connect command in chunks of 128 bytes -/

/-- The connect command before the application name. -/
def connectHead : List UInt8 :=
  (Amf0Value.string "connect").serialize ++ (Amf0Value.number (F64.ofNat 1)).serialize ++
    [Amf0Value.amf0Object] ++ Amf0Value.serializeStr "app" ++ [Amf0Value.amf0String]

/-- The connect command between the application name and the URL. -/
def connectMid : List UInt8 := Amf0Value.serializeStr "tcUrl" ++ [Amf0Value.amf0String]

/-- The connect command after the URL. -/
def connectTail : List UInt8 :=
  Amf0Value.serializeObjectEntries [
    ("flashVer", .string "FMLE/3.0 (compatible; mibeerec)"),
    ("swfUrl", .string ""),
    ("fpad", .boolean false),
    ("capabilities", .number (F64.ofNat 239)),
    ("audioCodecs", .number (F64.ofNat 3575)),
    ("videoCodecs", .number (F64.ofNat 252)),
    ("videoFunction", .number (F64.ofNat 1)),
    ("pageUrl", .string ""),
    ("objectEncoding", .number (F64.ofNat 0))] ++ [0x00, 0x00, Amf0Value.amf0ObjectEnd] ++
    (Amf0Value.object [("level", .string "status")]).serialize

theorem encodeConnect_eq (app host : String) (port : UInt16) :
    encodeConnect app host port = connectHead ++ Amf0Value.serializeStr app ++ connectMid ++
      Amf0Value.serializeStr (tcUrl app host port) ++ connectTail := by
  simp only [encodeConnect, connectHead, connectMid, connectTail, Amf0Value.serialize,
    Amf0Value.serializeObjectEntries, List.append_assoc, List.cons_append, List.nil_append]

/-- A string on the wire has no long run of `0xC3`: at most its two length bytes and one lead
byte. -/
theorem noRun_serializeStr (s : String) : NoRun 0xC3 4 (Amf0Value.serializeStr s) := by
  have hlen : NoRun 0xC3 3 (beBytes 2 (asBytes s).length) := by
    simpa using noRun_length 0xC3 (beBytes 2 (asBytes s).length)
  exact hlen.append (noRun_asBytes (by decide) s)

/-- **The connect command has no long run of `0xC3`**, whatever its strings are. -/
theorem noRun_encodeConnect (app host : String) (port : UInt16) :
    NoRun 0xC3 7 (encodeConnect app host port) := by
  have hhead : NoRun 0xC3 1 connectHead := noRun_of_notMem (by decide)
  have hmid : NoRun 0xC3 1 connectMid := noRun_of_notMem (by decide)
  have htail : NoRun 0xC3 1 connectTail := noRun_of_notMem (by decide)
  rw [encodeConnect_eq]
  exact (((hhead.append (noRun_serializeStr app)).append hmid).append
    (noRun_serializeStr _)).append htail

theorem length_encodeConnect (app host : String) (port : UInt16) :
    135 ≤ (encodeConnect app host port).length := by
  have htail : 135 ≤ connectTail.length := by decide +kernel
  rw [encodeConnect_eq, List.length_append]
  omega

/-- A list that starts with a byte and then with itself starts with a run of that byte. -/
theorem replicate_prefix_of_shift {b : UInt8} : ∀ {k : ℕ} {l : List UInt8},
    b :: l.take k <+: l → List.replicate (k + 1) b <+: l := by
  intro k
  induction k with
  | zero =>
      intro l h
      simpa using h
  | succ k ih =>
      intro l h
      cases l with
      | nil => simp at h
      | cons x l =>
          rw [List.cons_prefix_cons] at h
          obtain ⟨rfl, h⟩ := h
          rw [List.take_succ_cons] at h
          rw [List.replicate_succ, List.cons_prefix_cons]
          exact ⟨rfl, ih h⟩

/-- The body of a message of more than one chunk, up to the second chunk. -/
theorem writeBody_two (cont : List UInt8) {data : List UInt8} {c : ℕ} (hc : 1 ≤ c)
    (hlt : c < data.length) :
    ∃ more, writeBody cont c data.length data =
      data.take c ++ (cont ++ ((data.drop c).take c ++ more)) := by
  have hne : data ≠ [] := by
    rintro rfl
    simp at hlt
  have hrest : data.drop c ≠ [] := by
    intro hnil
    have := congrArg List.length hnil
    rw [List.length_drop, List.length_nil] at this
    omega
  obtain ⟨k, hk⟩ : ∃ k, data.length = k + 2 := ⟨data.length - 2, by omega⟩
  rw [hk, writeBody, if_neg hne]
  simp only [if_neg hrest]
  rw [writeBody, if_neg hrest]
  exact ⟨_, rfl⟩

/-- The body is at least as long as the data. -/
theorem length_le_writeBody (cont : List UInt8) {c : ℕ} (hc : 1 ≤ c) : ∀ (fuel : ℕ)
    (data : List UInt8), data.length ≤ fuel → data.length ≤ (writeBody cont c fuel data).length := by
  intro fuel
  induction fuel with
  | zero =>
      intro data h
      omega
  | succ fuel ih =>
      intro data h
      rw [writeBody]
      by_cases hne : data = []
      · simp [hne]
      · have hrest := ih (data.drop c) (by rw [List.length_drop]; omega)
        rw [if_neg hne]
        dsimp only
        rw [List.length_append, List.length_take]
        rw [List.length_drop] at hrest
        by_cases hd : data.drop c = []
        · have := congrArg List.length hd
          rw [List.length_drop, List.length_nil] at this
          omega
        · rw [if_neg hd, List.length_append]
          omega

/-- The bytes `write_chunked` puts on the wire for the connect command, after its header. -/
def connectBody (app host : String) (port : UInt16) : List UInt8 :=
  writeBody [0xC3] 128 (encodeConnect app host port).length (encodeConnect app host port)

theorem wire_connect (app host : String) (port : UInt16) :
    (writeCommandChunk 0 0 (encodeConnect app host port)).wire =
      ChunkBasicHeader.serialize ⟨.type0, 3⟩ ++
        (writtenHeader .command 0 0 (encodeConnect app host port)).serialize .type0 ++
        connectBody app host port := by
  have hcont : ChunkBasicHeader.serialize ⟨.type3, 3⟩ = [0xC3] := by rfl
  simp only [ChunkedWrite.wire, writeCommandChunk, writeChunked, hcont, connectBody]

/-- **The connect command is not what a receiver reads at its place**: beyond its first 128 bytes
the body is the command moved by a `0xC3`. -/
theorem connectBody_not_prefix (app host : String) (port : UInt16) {n : ℕ} (hn : 135 ≤ n) :
    ¬ (connectBody app host port).take n <+: encodeConnect app host port := by
  intro hprefix
  set payload := encodeConnect app host port with hpayload
  have hlen : 135 ≤ payload.length := length_encodeConnect app host port
  have hlt : 128 < payload.length := by omega
  obtain ⟨more, hbody⟩ := writeBody_two [0xC3] (by omega) hlt
  have htake : (connectBody app host port).take 135
      = payload.take 128 ++ (0xC3 :: (payload.drop 128).take 6) := by
    have hfirst : (payload.take 128).length = 128 := by rw [List.length_take]; omega
    have hsecond : 6 ≤ ((payload.drop 128).take 128).length := by
      rw [List.length_take, List.length_drop]
      omega
    rw [connectBody, ← hpayload, hbody, List.take_append, hfirst,
      List.take_of_length_le (by omega), List.singleton_append, List.take_succ_cons,
      List.take_append_of_le_length hsecond, List.take_take]
    rfl
  have hprefix' : (connectBody app host port).take 135 <+: payload :=
    (List.take_prefix_take_left hn).trans hprefix
  rw [htake] at hprefix'
  have hshift : 0xC3 :: (payload.drop 128).take 6 <+: payload.drop 128 := by
    have hsplit : payload = payload.take 128 ++ payload.drop 128 :=
      (List.take_append_drop 128 payload).symm
    nth_rewrite 3 [hsplit] at hprefix'
    exact (List.prefix_append_right_inj _).1 hprefix'
  exact noRun_encodeConnect app host port
    ((replicate_prefix_of_shift hshift).isInfix.trans (List.drop_suffix 128 payload).isInfix)

/-! ### The session -/

/-- The SetChunkSize message of `connect`. -/
def setChunkSizeMessage : Message := .small .setChunkSize 0 0 0 [0x00, 0x01, 0x00, 0x00]

/-- What a receiver between two messages makes of the connect command, when it has been told chunk
size 65536: the first message on chunk stream 3 starts with the body of the command. -/
theorem Peer.find_connect {p : Peer} (hsize : p.chunkSize = announcedSize) (hp : p.Between)
    (app host : String) (port : UInt16) (rest : List UInt8) {r : Received}
    (hfind : (p.recover ((writeCommandChunk 0 0 (encodeConnect app host port)).wire ++ rest)).find?
      (fun r => r.chunkStreamId = 3) = some r) :
    ∃ n, (n = announcedSize ∨ n = r.payload.length) ∧
      (connectBody app host port).take n <+: r.payload := by
  set payload := encodeConnect app host port with hpayload
  set header := Peer.headerOf .command 0 0 payload with hheader
  set n := min header.length announcedSize with hn
  have hlen : n ≤ (connectBody app host port).length := by
    have := length_le_writeBody [0xC3] (c := 128) (by omega) _ payload le_rfl
    have hL : header.length ≤ payload.length := by
      simp only [hheader, Peer.headerOf]
      exact (min_le_left _ _).trans (Nat.mod_le _ _)
    exact ((min_le_left _ _).trans hL).trans this
  have htakelen : ((connectBody app host port).take n).length = n := by
    rw [List.length_take, min_eq_left hlen]
  -- the first chunk the receiver sees
  have hbytes : (writeCommandChunk 0 0 payload).wire ++ rest =
      ChunkBasicHeader.serialize ⟨.type0, 3⟩ ++ (writtenHeader .command 0 0 payload).serialize .type0
        ++ (connectBody app host port).take n ++ ((connectBody app host port).drop n ++ rest) := by
    have hbody := List.take_append_drop n (connectBody app host port)
    rw [List.append_assoc _ ((connectBody app host port).take n), ← List.append_assoc
      ((connectBody app host port).take n), hbody, ← List.append_assoc, hpayload, wire_connect]
  have hbasic : Reads ChunkBasicHeader.parse (ChunkBasicHeader.serialize ⟨.type0, 3⟩) ⟨.type0, 3⟩ :=
    ChunkBasicHeader.reads_serialize .type0 (by omega) (by omega)
  have hh : Reads (Peer.readHeader .type0 (p.streams 3))
      ((writtenHeader .command 0 0 payload).serialize .type0) header :=
    Peer.reads_written .command payload (by decide) (by decide) (hp 3)
  have hdata : ((connectBody app host port).take n).length =
      min (header.length - ((p.streams 3).inFlight.getD []).length) p.chunkSize := by
    rw [hp 3, hsize, htakelen, hn, Option.getD_none, List.length_nil, Nat.sub_zero]
  -- from here on the number of bytes taken is a number like any other
  clear_value n
  have hstep := Peer.readChunk_of_reads hbasic hh hdata ((connectBody app host port).drop n ++ rest)
  rw [← hbytes] at hstep
  simp only [hp 3, Option.getD_none, List.nil_append, Peer.advance, htakelen] at hstep
  by_cases hdone : header.length ≤ n
  · -- the command fits the announced size
    rw [if_pos hdone] at hstep
    rw [Peer.recover_of_readChunk hstep] at hfind
    simp only [Option.toList_some, List.singleton_append, List.find?_cons, decide_true,
      Option.some.injEq] at hfind
    subst hfind
    exact ⟨n, Or.inr htakelen.symm, List.prefix_refl _⟩
  · rw [if_neg hdone] at hstep
    rw [Peer.recover_of_readChunk hstep, Option.toList_none, List.nil_append] at hfind
    refine ⟨n, Or.inl (by omega), Peer.recover_find_prefix _ ?_ (List.prefix_refl _) hfind⟩
    simp

/-- **No session of the push client is recovered**: whatever the names, the server's replies and
the audio and video sent afterwards, a conforming receiver does not get the messages the client
meant to send. -/
theorem Peer.not_recover_session (host : String) (port : UInt16) (appName streamName : String)
    (reads : List (List UInt8)) (ops : List RtmpPushClient.Op) :
    ({} : Peer).recover
        ((RtmpPushClient.session host port appName streamName reads ops).flatMap ChunkedWrite.wire)
      ≠ (RtmpPushClient.session host port appName streamName reads ops).map
          ChunkedWrite.received := by
  intro h
  obtain ⟨rest, hsession⟩ :=
    RtmpPushClient.session_eq host port appName streamName reads ops
  rw [hsession, List.flatMap_cons, List.flatMap_cons, List.map_cons, List.map_cons] at h
  have hwire : (writeProtocolMessage .setChunkSize (beBytes 4 announcedSize)).wire
      = setChunkSizeMessage.wire 128 := by rfl
  rw [hwire, Peer.recover_message (c := 128) (by omega) rfl rfl (by decide), List.cons.injEq] at h
  obtain ⟨-, h⟩ := h
  have hbetween : (({} : Peer).finished setChunkSizeMessage).Between :=
    Peer.Between.finished (fun _ => rfl) _
  have hsize : (({} : Peer).finished setChunkSizeMessage).chunkSize = announcedSize := by rfl
  obtain ⟨n, hn, hprefix⟩ := Peer.find_connect hsize hbetween appName host port
    (rest.flatMap ChunkedWrite.wire)
    (r := (writeCommandChunk 0 0 (encodeConnect appName host port)).received)
    (by rw [h]; simp [writeCommandChunk, ChunkedWrite.received])
  have hlong : 135 ≤ n := by
    have := length_encodeConnect appName host port
    rcases hn with rfl | rfl
    · decide
    · exact this
  exact connectBody_not_prefix appName host port hlong hprefix

/-- The second message that a receiver gets from a client whose connection is closed right after
the connect command: the continuation header of the second chunk stands in it as data. -/
theorem Peer.recover_live_session :
    ({} : Peer).recover
        ((RtmpPushClient.session "nvr" 1935 "live" "cam" [] []).flatMap ChunkedWrite.wire)
      ≠ (RtmpPushClient.session "nvr" 1935 "live" "cam" [] []).map ChunkedWrite.received := by
  decide +kernel

end Rtmp

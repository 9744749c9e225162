/-
**Compressed chunk headers.**

A sender need not repeat what the receiver knows.  The first chunk of a message on a chunk stream
that has carried one before may leave out the message stream id (Type 1), also the length and the
type (Type 2), or everything (Type 3), if they are what they were; the timestamp is then a
difference.  `ChunkMessageHeader::parse` in `crates/protocols/src/rtmp/chunk.rs` fills the fields
that are not on the wire with placeholders, and `ChunkStreamParser::parse_chunk` remembers the
result in place of the header before.  For Type 1 only the message stream id is lost, which the
parser never looks at.  For Type 2 it is the length, and the placeholder is zero: the chunk is taken
for an empty message, and its data for the next chunks.

Main definitions:

* `Rtmp.Compressed` — a message with the form of its first chunk and the timestamp field in force;
* `Rtmp.Conforming` — the sequences a sender may produce on one chunk stream;
* `Rtmp.Understood` — the parser delivers their payloads and uses up their bytes.

Main results:

* `Rtmp.ChunkStreamParser.messages_chunks` — all chunks of a message, whatever its header was;
* `Rtmp.Compressed.step` — a message with a readable header is delivered;
* `Rtmp.understood_iff` — **a sequence is understood, up to every message and for every chunk size,
  exactly when no message needs an extended timestamp, no WindowAckSize is too short, and Type 2 is
  only used for empty messages**.
-/

import MibeeEye.RtmpChunkAgreement

set_option relaxedAutoImplicit false
set_option autoImplicit false

namespace Rtmp

open Wire

/-! ### What the sender does -/

/-- A message, the form of its first chunk, and the timestamp field in force: the timestamp itself
after Type 0, the difference to the message before after Type 1 and Type 2. -/
structure Compressed where
  form : ChunkType
  message : Message
  field : ℕ
  field_lt : field < 2 ^ 32

/-- The difference between the timestamps of two messages, which wrap around. -/
def timestampDelta (before after : Message) : ℕ :=
  (after.timestamp + 2 ^ 32 - before.timestamp) % 2 ^ 32

/-- What a sender must see to before it uses the form, after the given message on its chunk
stream. -/
def Compressed.Follows (x : Compressed) : Option Compressed → Prop
  | none => x.form = .type0 ∧ x.field = x.message.timestamp
  | some y =>
      match x.form with
      | .type0 => x.field = x.message.timestamp
      | .type1 =>
          x.message.messageStreamId = y.message.messageStreamId ∧
            x.field = timestampDelta y.message x.message
      | .type2 =>
          x.message.messageStreamId = y.message.messageStreamId ∧
            x.message.messageType = y.message.messageType ∧
            x.message.payload.length = y.message.payload.length ∧
            x.field = timestampDelta y.message x.message
      | .type3 =>
          x.message.messageStreamId = y.message.messageStreamId ∧
            x.message.messageType = y.message.messageType ∧
            x.message.payload.length = y.message.payload.length ∧
            x.field = y.field ∧ x.field = timestampDelta y.message x.message

/-- **The sequences a sender may produce** on chunk stream `id` after the given message. -/
def Conforming (id : ℕ) : Option Compressed → List Compressed → Prop
  | _, [] => True
  | before, x :: xs =>
      x.message.chunkStreamId = id ∧ x.Follows before ∧ Conforming id (some x) xs

/-- The bytes of the chunks that carry the given pieces of data: the first of type `t` with header
`head`, the others of Type 3. -/
@[grind =]
def chunkBytes (id : ℕ) (t : ChunkType) (head cont : List UInt8) : List (List UInt8) → List UInt8
  | [] => []
  | d :: ds =>
      ChunkBasicHeader.serialize ⟨t, id⟩ ++ head ++ d ++ chunkBytes id .type3 cont cont ds

namespace Compressed

/-- All fields of the header, whichever of them are on the wire. -/
def header (x : Compressed) : ChunkMessageHeader where
  timestamp := x.field
  messageLength := x.message.payload.length
  messageType := x.message.messageType
  messageStreamId := some x.message.messageStreamId
  extended := decide (ChunkMessageHeader.extendedTimestampThreshold ≤ x.field)

/-- The message header of the first chunk; a chunk of Type 3 repeats an extended timestamp. -/
def head (x : Compressed) : List UInt8 :=
  match x.form with
  | .type3 => x.header.extendedField
  | t => x.header.serialize t

/-- The bytes of a message sent with chunk size `c`. -/
def encode (c : ℕ) (x : Compressed) : List UInt8 :=
  chunkBytes x.message.chunkStreamId x.form x.head x.header.extendedField (cut c x.message.payload)

end Compressed

/-- The messages that a parser delivers until the bytes are exhausted. -/
def ChunkStreamParser.messages (p : ChunkStreamParser) (bs : List UInt8) :
    Except String (List (List UInt8)) := (p.parseAll bs).map List.reduceOption

/-- **The parser understands a sequence**: it delivers the payloads, in order and no others, and
uses up the bytes. -/
def Understood (c : ℕ) (xs : List Compressed) : Prop :=
  (freshParser c).messages (xs.flatMap (Compressed.encode c)) =
    .ok (xs.map fun x => x.message.payload)

/-! ### What the parser reads -/

/-- The header that the parser takes a first chunk to have, after the header `before`. -/
def Compressed.readAs (x : Compressed) (before : ChunkMessageHeader) : ChunkMessageHeader :=
  match x.form with
  | .type0 => x.header
  | .type1 => { x.header with messageStreamId := none }
  | .type2 =>
      { x.header with messageLength := 0, messageType := .command, messageStreamId := none }
  | .type3 => before

namespace ChunkMessageHeader

/-- **A Type 1 header is read back**, without a message stream id. -/
theorem reads_serialize_type1 (h : ChunkMessageHeader) (hts : h.timestamp < 2 ^ 32)
    (hlen : h.messageLength ≤ extendedTimestampThreshold)
    (hext : h.extended = decide (extendedTimestampThreshold ≤ h.timestamp)) :
    Reads (parse .type1) (h.serialize .type1) { h with messageStreamId := none } := by
  set buf := beBytes 3 h.timestampField ++ beBytes 3 h.messageLength ++ [h.messageType.toU8]
    with hbuf
  have hser : h.serialize .type1 = buf ++ h.extendedField := by
    rw [serialize, min_eq_left hlen]
  have hfield : ofBe (slice buf 0 3) = h.timestampField := by
    rw [show slice buf 0 3 = beBytes 3 h.timestampField by simp [hbuf, slice]]
    exact ofBe_beBytes_of_lt h.timestampField_lt
  have hlength : ofBe (slice buf 3 6) = h.messageLength := by
    rw [show slice buf 3 6 = beBytes 3 h.messageLength by simp [hbuf, slice]]
    exact ofBe_beBytes_of_lt (by simp only [extendedTimestampThreshold] at hlen; omega)
  have htype : (buf.drop 6).headD 0 = h.messageType.toU8 := by
    simp [hbuf, List.drop_append, List.drop_eq_nil_of_le]
  rw [hser]
  refine Reads.bind (reads_readExact _ (by simp [hbuf])) ?_
  refine Reads.bind_nil (Reads.ofExcept (a := h.messageType) (by rw [htype]; simp)) ?_
  have hts' : Reads (readTimestamp (ofBe (slice buf 0 3))) h.extendedField
      (h.timestamp, h.extended) := by
    rw [hfield]
    exact h.reads_timestamp hts hext
  exact hts'.bind_last (by rw [hlength])

/-- **A Type 2 header is read with placeholders** for length and type. -/
theorem reads_serialize_type2 (h : ChunkMessageHeader) (hts : h.timestamp < 2 ^ 32)
    (hext : h.extended = decide (extendedTimestampThreshold ≤ h.timestamp)) :
    Reads (parse .type2) (h.serialize .type2)
      { h with messageLength := 0, messageType := .command, messageStreamId := none } := by
  have hfield : ofBe (slice (beBytes 3 h.timestampField) 0 3) = h.timestampField := by
    rw [show slice (beBytes 3 h.timestampField) 0 3 = beBytes 3 h.timestampField by
      simp [slice, List.take_of_length_le]]
    exact ofBe_beBytes_of_lt h.timestampField_lt
  refine Reads.bind (reads_readExact _ (length_beBytes 3 _)) ?_
  have hts' : Reads (readTimestamp (ofBe (slice (beBytes 3 h.timestampField) 0 3))) h.extendedField
      (h.timestamp, h.extended) := by
    rw [hfield]
    exact h.reads_timestamp hts hext
  exact hts'.bind_last rfl

end ChunkMessageHeader

/-- A first chunk that brings a header of its own. -/
theorem Compressed.reads_head (x : Compressed) (hform : x.form ≠ .type3)
    (state : ChunkStreamState) (before : ChunkMessageHeader) :
    Reads (ChunkStreamParser.readHeader ⟨x.form, x.message.chunkStreamId⟩ state) x.head
      (x.readAs before) := by
  have hlen : x.header.messageLength ≤ ChunkMessageHeader.extendedTimestampThreshold :=
    x.message.payload_le
  cases hf : x.form with
  | type0 =>
      simp only [head, readAs, hf]
      exact x.header.reads_serialize_type0 x.field_lt hlen rfl x.message.msid_lt rfl
  | type1 =>
      simp only [head, readAs, hf]
      exact x.header.reads_serialize_type1 x.field_lt hlen rfl
  | type2 =>
      simp only [head, readAs, hf]
      exact x.header.reads_serialize_type2 x.field_lt rfl
  | type3 => exact absurd hf hform

/-! ### One chunk, and all chunks of a message -/

namespace ChunkStreamParser

/-- The end of a message with the given type: a WindowAckSize that is too short is an error. -/
def finish (messageType : MessageType) (message : List UInt8) : Except String (List UInt8) :=
  let len := message.length
  if messageType = .windowAckSize ∧ message.length < 4 then
    .error s!"WindowAckSize data too short: {len}"
  else .ok message

/-- The parser after the message with the given header on chunk stream `id`. -/
structure AfterMessage (p : ChunkStreamParser) (c id : ℕ) (header : ChunkMessageHeader) : Prop where
  chunkSize : p.chunkSize = c
  currentMessage : p.currentMessage = []
  stream : p.streams id = ⟨some header, 0⟩

/-- The chunk that completes a message. -/
theorem complete_of_le {p : ChunkStreamParser} (id : ℕ) {header : ChunkMessageHeader} {r : ℕ}
    (hstream : p.streams id = ⟨some header, r⟩) (hr : header.messageLength ≤ r) :
    ∃ p', p.complete id header = ((finish header.messageType p.currentMessage).map some, p') ∧
      p'.AfterMessage p.chunkSize id header ∧ ∀ k, k ≠ id → p'.streams k = p.streams k := by
  have hother : ∀ k, k ≠ id →
      Function.update p.streams id ⟨some header, 0⟩ k = p.streams k := by
    intro k hk
    exact Function.update_of_ne hk _ _
  unfold complete
  simp only [hstream, if_pos hr, handleWindowAckSize, finish]
  by_cases hw : header.messageType = .windowAckSize
  · by_cases hlen : p.currentMessage.length < 4
    · simp only [hw, hlen, if_true, and_self]
      exact ⟨_, rfl, ⟨rfl, rfl, Function.update_self _ _ _⟩, hother⟩
    · simp only [hw, hlen, if_true, if_false, and_false]
      exact ⟨_, rfl, ⟨rfl, rfl, Function.update_self _ _ _⟩, hother⟩
  · simp only [hw, if_false, false_and]
    exact ⟨_, rfl, ⟨rfl, rfl, Function.update_self _ _ _⟩, hother⟩

/-- **A chunk that completes a message.** -/
theorem parseChunk_completes {p : ChunkStreamParser} {basic : ChunkBasicHeader}
    {header : ChunkMessageHeader} {b h d : List UInt8}
    (hb : Reads ChunkBasicHeader.parse b basic)
    (hh : Reads (readHeader basic (p.streams basic.chunkStreamId)) h header)
    (hlen : d.length = p.chunkDataSize basic.chunkStreamId header) (hext : header.extended = false)
    (hr : header.messageLength ≤ (p.streams basic.chunkStreamId).receivedBytes + d.length) :
    ∃ p' : ChunkStreamParser, p'.AfterMessage p.chunkSize basic.chunkStreamId header ∧
      (∀ k, k ≠ basic.chunkStreamId → p'.streams k = p.streams k) ∧
      ∀ rest, p.parseChunk (b ++ h ++ d ++ rest) =
        ((finish header.messageType (p.currentMessage ++ d)).map some, p', rest) := by
  have hstream : (p.accumulate basic.chunkStreamId header d).streams basic.chunkStreamId =
      ⟨some header, (p.streams basic.chunkStreamId).receivedBytes + d.length⟩ := by
    simp [accumulate]
  obtain ⟨p', hrun, hafter, hother⟩ := complete_of_le basic.chunkStreamId hstream hr
  refine ⟨p', hafter, fun k hk => ?_, fun rest => ?_⟩
  · rw [hother k hk, accumulate]
    exact Function.update_of_ne hk _ _
  · rw [parseChunk_of_reads hb hh hlen hext, hrun]
    rfl

/-- **A chunk after which more is to come.** -/
theorem parseChunk_continues {p : ChunkStreamParser} {basic : ChunkBasicHeader}
    {header : ChunkMessageHeader} {b h d : List UInt8}
    (hb : Reads ChunkBasicHeader.parse b basic)
    (hh : Reads (readHeader basic (p.streams basic.chunkStreamId)) h header)
    (hlen : d.length = p.chunkDataSize basic.chunkStreamId header) (hext : header.extended = false)
    (hr : (p.streams basic.chunkStreamId).receivedBytes + d.length < header.messageLength)
    (rest : List UInt8) :
    p.parseChunk (b ++ h ++ d ++ rest) =
      (.ok none, p.accumulate basic.chunkStreamId header d, rest) := by
  have hmore : ¬ header.messageLength ≤
      ((p.accumulate basic.chunkStreamId header d).streams basic.chunkStreamId).receivedBytes := by
    simpa [accumulate] using hr
  rw [parseChunk_of_reads hb hh hlen hext]
  simp only [complete, if_neg hmore]

theorem messages_of_error {p p' : ChunkStreamParser} {bs rest : List UInt8} {e : String}
    (hne : bs ≠ []) (h : p.parseChunk bs = (.error e, p', rest)) : p.messages bs = .error e := by
  rw [messages, parseAll_of_error hne h]
  rfl

theorem messages_of_none {p p' : ChunkStreamParser} {bs rest : List UInt8}
    (h : p.parseChunk bs = (.ok none, p', rest)) : p.messages bs = p'.messages rest := by
  rw [messages, messages, parseAll_of_ok h]
  cases p'.parseAll rest <;> rfl

theorem messages_of_some {p p' : ChunkStreamParser} {bs rest m : List UInt8}
    (h : p.parseChunk bs = (.ok (some m), p', rest)) :
    p.messages bs = (p'.messages rest).map (m :: ·) := by
  rw [messages, messages, parseAll_of_ok h]
  cases p'.parseAll rest <;> rfl

/-- **All chunks of a message**, of which some bytes may have come before: the message is what is
in the buffer and their data, and the parser is idle again. -/
theorem messages_chunks {c id : ℕ} (hc : 1 ≤ c) (hge : 2 ≤ id) (hle : id ≤ 65599)
    {header : ChunkMessageHeader} (hext : header.extended = false) :
    ∀ (data : List UInt8) {p : ChunkStreamParser} {t : ChunkType} {head : List UInt8},
      p.chunkSize = c →
      (p.streams id).receivedBytes + data.length = header.messageLength →
      Reads (readHeader ⟨t, id⟩ (p.streams id)) head header →
      ∃ p' : ChunkStreamParser, p'.AfterMessage c id header ∧ ∀ tail,
        p.messages (chunkBytes id t head [] (cut c data) ++ tail) =
          (finish header.messageType (p.currentMessage ++ data)).bind fun m =>
            (p'.messages tail).map (m :: ·) := by
  intro data
  -- induction on the chunks; what has come before is in the buffer and in `receivedBytes`
  induction data using cut_induction hc with
  | short data h =>
      intro p t head hsize hlen hhead
      have hdata : data.length = p.chunkDataSize id header := by
        rw [chunkDataSize, hsize]
        omega
      obtain ⟨p', hafter, -, hrun⟩ :=
        parseChunk_completes (ChunkBasicHeader.reads_serialize t hge hle)
          hhead hdata hext (by simp only; omega)
      rw [hsize] at hafter
      refine ⟨p', hafter, fun tail => ?_⟩
      have hbytes : chunkBytes id t head [] (cut c data) ++ tail =
          ChunkBasicHeader.serialize ⟨t, id⟩ ++ head ++ data ++ tail := by
        rw [cut_of_le h, chunkBytes, chunkBytes, List.append_nil]
      rw [hbytes]
      cases hfin : finish header.messageType (p.currentMessage ++ data) with
      | error e =>
          have herr := hrun tail
          rw [hfin] at herr
          exact messages_of_error (by simp [ChunkBasicHeader.serialize_ne_nil]) herr
      | ok m =>
          have hok := hrun tail
          rw [hfin] at hok
          exact messages_of_some hok
  | long data h ih =>
      intro p t head hsize hlen hhead
      have htake : (data.take c).length = c := by
        rw [List.length_take]
        omega
      have hdata : (data.take c).length = p.chunkDataSize id header := by
        rw [chunkDataSize, hsize]
        omega
      have hrun := parseChunk_continues (ChunkBasicHeader.reads_serialize t hge hle) hhead hdata hext
        (by simp only; omega)
      set q := p.accumulate id header (data.take c) with hq
      have hstream : q.streams id = ⟨some header, (p.streams id).receivedBytes + c⟩ := by
        rw [hq, accumulate, htake]
        simp
      have hcont : Reads (readHeader ⟨.type3, id⟩ (q.streams id)) [] header := by
        rw [hstream]
        exact Reads.pure _
      obtain ⟨p', hafter, hrest⟩ := ih (p := q) hsize
        (by rw [hstream, List.length_drop]; simp only; omega) hcont
      refine ⟨p', hafter, fun tail => ?_⟩
      have hbytes : chunkBytes id t head [] (cut c data) ++ tail =
          ChunkBasicHeader.serialize ⟨t, id⟩ ++ head ++ data.take c ++
            (chunkBytes id .type3 [] [] (cut c (data.drop c)) ++ tail) := by
        rw [cut_of_lt hc h, chunkBytes, List.append_assoc]
      have hbuf : q.currentMessage ++ data.drop c = p.currentMessage ++ data := by
        rw [hq, accumulate, List.append_assoc, List.take_append_drop]
      rw [hbytes, messages_of_none (hrun _), hrest tail, hbuf]

end ChunkStreamParser

/-! ### Messages that are read as they were sent -/

/-- A message with neither an extended timestamp nor a window that is too short, and with its
length on the wire unless it is empty. -/
def Compressed.Readable (x : Compressed) : Prop :=
  x.field < 0xFFFFFF ∧
    (x.message.messageType = .windowAckSize → 4 ≤ x.message.payload.length) ∧
    (x.form = .type2 → x.message.payload = [])

/-- A header that has not misled the parser about the message `x`. -/
structure Compressed.FitsHeader (x : Compressed) (header : ChunkMessageHeader) : Prop where
  extended : header.extended = false
  messageLength : header.messageLength = x.message.payload.length
  windowAckSize : header.messageType = .windowAckSize → 4 ≤ header.messageLength

theorem Compressed.FitsHeader.finish_payload {x : Compressed} {header : ChunkMessageHeader}
    (h : x.FitsHeader header) :
    ChunkStreamParser.finish header.messageType x.message.payload = .ok x.message.payload := by
  have hwindow := h.windowAckSize
  rw [h.messageLength] at hwindow
  rw [ChunkStreamParser.finish, if_neg]
  rintro ⟨hw, hlt⟩
  have := hwindow hw
  omega

/-- The parser between two messages, the given one being the last. -/
def ChunkStreamParser.Ready (p : ChunkStreamParser) (c id : ℕ) : Option Compressed → Prop
  | none => p.chunkSize = c ∧ p.currentMessage = [] ∧ (p.streams id).receivedBytes = 0
  | some y => y.Readable ∧ ∃ header, y.FitsHeader header ∧ p.AfterMessage c id header

theorem ChunkStreamParser.Ready.between {p : ChunkStreamParser} {c id : ℕ}
    {before : Option Compressed} (h : p.Ready c id before) :
    p.chunkSize = c ∧ p.currentMessage = [] ∧ (p.streams id).receivedBytes = 0 := by
  cases before with
  | none => exact h
  | some y =>
      obtain ⟨-, header, -, hafter⟩ := h
      exact ⟨hafter.chunkSize, hafter.currentMessage, by rw [hafter.stream]⟩

namespace Compressed

theorem extendedField_of_lt {x : Compressed} (h : x.field < 0xFFFFFF) :
    x.header.extendedField = [] := by
  have hext : x.header.extended = false := decide_eq_false (Nat.not_le.2 h)
  rw [ChunkMessageHeader.extendedField, hext]
  rfl

theorem follows_some {x : Compressed} {before : Option Compressed} (h : x.Follows before)
    (hform : x.form ≠ .type0) : ∃ y, before = some y := by
  cases before with
  | none => exact absurd h.1 hform
  | some y => exact ⟨y, rfl⟩

/-- Type 2 and Type 3 repeat the type and the length of the message before. -/
theorem same_of_follows {x y : Compressed} (h : x.Follows (some y))
    (hform : x.form = .type2 ∨ x.form = .type3) :
    x.message.messageType = y.message.messageType ∧
      x.message.payload.length = y.message.payload.length := by
  rcases hform with hf | hf
  · simp only [Follows, hf] at h
    exact ⟨h.2.1, h.2.2.1⟩
  · simp only [Follows, hf] at h
    exact ⟨h.2.1, h.2.2.1⟩

/-- A header of its own does not mislead the parser about a readable message. -/
theorem fitsHeader_readAs {x : Compressed} (h : x.Readable) (hform : x.form ≠ .type3)
    (before : ChunkMessageHeader) : x.FitsHeader (x.readAs before) := by
  have hext : x.header.extended = false := decide_eq_false (Nat.not_le.2 h.1)
  cases hf : x.form with
  | type0 =>
      simp only [readAs, hf]
      exact ⟨hext, rfl, h.2.1⟩
  | type1 =>
      simp only [readAs, hf]
      exact ⟨hext, rfl, h.2.1⟩
  | type2 =>
      simp only [readAs, hf]
      refine ⟨hext, ?_, fun hw => by cases hw⟩
      rw [h.2.2 hf]
      rfl
  | type3 => exact absurd hf hform

/-- The header of a readable message is not misread. -/
theorem exists_header {x : Compressed} {before : Option Compressed} {p : ChunkStreamParser} {c : ℕ}
    (hready : p.Ready c x.message.chunkStreamId before) (hfollows : x.Follows before)
    (h : x.Readable) :
    ∃ header, x.FitsHeader header ∧
      Reads (ChunkStreamParser.readHeader ⟨x.form, x.message.chunkStreamId⟩
        (p.streams x.message.chunkStreamId)) x.head header := by
  by_cases hf : x.form = .type3
  · -- nothing is on the wire, and the header before is for a message of the same length and type
    obtain ⟨y, rfl⟩ := follows_some hfollows (by rw [hf]; decide)
    obtain ⟨-, header, hfits, hafter⟩ := hready
    have hsame := same_of_follows hfollows (.inr hf)
    refine ⟨header, ⟨hfits.extended, ?_, hfits.windowAckSize⟩, ?_⟩
    · rw [hfits.messageLength, hsame.2]
    · have hhead : x.head = [] := by
        simp only [head, hf]
        exact extendedField_of_lt h.1
      rw [hhead, hafter.stream, hf]
      exact Reads.pure _
  · exact ⟨_, fitsHeader_readAs h hf x.header, x.reads_head hf _ _⟩

/-- **A readable message is delivered**, and the parser is ready for the next one. -/
theorem step {x : Compressed} {before : Option Compressed} {p : ChunkStreamParser} {c : ℕ}
    (hc : 1 ≤ c) (hready : p.Ready c x.message.chunkStreamId before) (hfollows : x.Follows before)
    (h : x.Readable) :
    ∃ p' : ChunkStreamParser, p'.Ready c x.message.chunkStreamId (some x) ∧ ∀ tail,
      p.messages (x.encode c ++ tail) = (p'.messages tail).map (x.message.payload :: ·) := by
  obtain ⟨header, hfits, hreads⟩ := exists_header hready hfollows h
  obtain ⟨hsize, hbuf, hreceived⟩ := hready.between
  obtain ⟨p', hafter, hrun⟩ := ChunkStreamParser.messages_chunks hc x.message.csid_ge
    x.message.csid_le hfits.extended x.message.payload hsize
    (by rw [hreceived, hfits.messageLength, Nat.zero_add]) hreads
  refine ⟨p', ⟨h, header, hfits, hafter⟩, fun tail => ?_⟩
  rw [encode, extendedField_of_lt h.1, hrun tail, hbuf, List.nil_append, hfits.finish_payload]
  rfl

end Compressed

/-! ### Messages that are not -/

namespace Compressed

variable {x : Compressed} {before : Option Compressed} {p : ChunkStreamParser} {c : ℕ}

/-- The first chunk of a message with something behind it. -/
theorem encode_eq (hc : 1 ≤ c) (x : Compressed) :
    ∃ d rest, x.encode c =
      ChunkBasicHeader.serialize ⟨x.form, x.message.chunkStreamId⟩ ++ x.head ++ (d ++ rest) := by
  cases hcut : cut c x.message.payload with
  | nil => exact absurd hcut (cut_ne_nil hc _)
  | cons d ds =>
      refine ⟨d, chunkBytes x.message.chunkStreamId .type3 x.header.extendedField
        x.header.extendedField ds, ?_⟩
      rw [encode, hcut, chunkBytes, List.append_assoc]

/-- **A Type 2 chunk is taken for an empty message**, or fails. -/
theorem messages_type2 (hc : 1 ≤ c) (hready : p.Ready c x.message.chunkStreamId before)
    (hform : x.form = .type2) :
    (∃ e, p.messages (x.encode c) = .error e) ∨
      ∃ p' : ChunkStreamParser, ∃ rest,
        p.messages (x.encode c) = (p'.messages rest).map ([] :: ·) := by
  obtain ⟨-, hbuf, hreceived⟩ := hready.between
  obtain ⟨d, rest, hbytes⟩ := encode_eq hc x
  have hreads := x.reads_head (by rw [hform]; decide) (p.streams x.message.chunkStreamId) x.header
  simp only [readAs, hform] at hreads
  set header : ChunkMessageHeader :=
    { x.header with messageLength := 0, messageType := .command, messageStreamId := none }
  have hne : x.encode c ≠ [] := by
    rw [hbytes]
    simp [ChunkBasicHeader.serialize_ne_nil]
  -- the placeholder says that no data is to come, so the message is complete
  have hsize : p.chunkDataSize x.message.chunkStreamId header = 0 := by
    rw [ChunkStreamParser.chunkDataSize, Nat.zero_sub, Nat.zero_min]
  have hstream : (p.accumulate x.message.chunkStreamId header []).streams x.message.chunkStreamId =
      ⟨some header, 0⟩ := by
    simp [ChunkStreamParser.accumulate, hreceived]
  obtain ⟨p', hcomplete, -, -⟩ :=
    ChunkStreamParser.complete_of_le x.message.chunkStreamId hstream le_rfl
  have hempty : ((ChunkStreamParser.finish header.messageType
      (p.accumulate x.message.chunkStreamId header []).currentMessage).map some) =
      .ok (some []) := by
    rw [ChunkStreamParser.accumulate, hbuf]
    rfl
  rw [hempty] at hcomplete
  have hinput : x.encode c = ChunkBasicHeader.serialize ⟨.type2, x.message.chunkStreamId⟩ ++
      (x.head ++ (d ++ rest)) := by
    rw [hbytes, hform, List.append_assoc]
  cases hskip : ChunkStreamParser.skipExtended header (d ++ rest) with
  | mk result after =>
      cases result with
      | error e =>
          have hparse : p.parseChunk (x.encode c) =
              (.error e, p.accumulate x.message.chunkStreamId header [], after) := by
            rw [hinput, ChunkStreamParser.parseChunk,
              ChunkBasicHeader.reads_serialize .type2 x.message.csid_ge x.message.csid_le]
            simp only [hreads (d ++ rest), hsize, readExact_of_le (Nat.zero_le _), List.take_zero,
              List.drop_zero, hskip]
          exact .inl ⟨e, ChunkStreamParser.messages_of_error hne hparse⟩
      | ok u =>
          have hparse : p.parseChunk (x.encode c) = (.ok (some []), p', after) := by
            rw [hinput, ChunkStreamParser.parseChunk,
              ChunkBasicHeader.reads_serialize .type2 x.message.csid_ge x.message.csid_le]
            simp only [hreads (d ++ rest), hsize, readExact_of_le (Nat.zero_le _), List.take_zero,
              List.drop_zero, hskip, hcomplete]
          exact .inr ⟨p', after, ChunkStreamParser.messages_of_some hparse⟩

/-- **An extended timestamp is looked for twice**, and the second time there is nothing left. -/
theorem messages_extended (hready : p.Ready (max 1 x.message.payload.length)
      x.message.chunkStreamId before)
    (hform : x.form ≠ .type3) (hempty : x.form = .type2 → x.message.payload = [])
    (hext : 0xFFFFFF ≤ x.field) :
    p.messages (x.encode (max 1 x.message.payload.length)) =
      .error "Failed to read extended timestamp" := by
  obtain ⟨hsize, -, hreceived⟩ := hready.between
  have hbytes : x.encode (max 1 x.message.payload.length) =
      ChunkBasicHeader.serialize ⟨x.form, x.message.chunkStreamId⟩ ++ x.head ++
        x.message.payload := by
    rw [encode, cut_of_le (le_max_right _ _), chunkBytes, chunkBytes, List.append_nil]
  have hread : (x.readAs x.header).messageLength = x.message.payload.length ∧
      (x.readAs x.header).extended = true := by
    have hlong : x.header.extended = true := decide_eq_true hext
    cases hf : x.form with
    | type0 =>
        simp only [readAs, hf]
        exact ⟨rfl, hlong⟩
    | type1 =>
        simp only [readAs, hf]
        exact ⟨rfl, hlong⟩
    | type2 =>
        simp only [readAs, hf]
        exact ⟨by rw [hempty hf]; rfl, hlong⟩
    | type3 => exact absurd hf hform
  have hlen : x.message.payload.length =
      p.chunkDataSize x.message.chunkStreamId (x.readAs x.header) := by
    rw [ChunkStreamParser.chunkDataSize, hreceived, hsize, hread.1]
    omega
  rw [hbytes]
  exact ChunkStreamParser.messages_of_error (by simp [ChunkBasicHeader.serialize_ne_nil])
    (ChunkStreamParser.parseChunk_extended
      (ChunkBasicHeader.reads_serialize x.form x.message.csid_ge x.message.csid_le)
      (x.reads_head hform _ x.header) hlen hread.2)

/-- **A WindowAckSize message that is too short is an error.** -/
theorem messages_window (hc : 1 ≤ c) (hready : p.Ready c x.message.chunkStreamId before)
    (hform : x.form = .type0 ∨ x.form = .type1) (hfield : x.field < 0xFFFFFF)
    (htype : x.message.messageType = .windowAckSize) (hshort : x.message.payload.length < 4) :
    ∃ e, p.messages (x.encode c) = .error e := by
  obtain ⟨hsize, hbuf, hreceived⟩ := hready.between
  have hext : x.header.extended = false := decide_eq_false (Nat.not_le.2 hfield)
  have hthree : x.form ≠ .type3 := by
    rcases hform with hf | hf <;> rw [hf] <;> decide
  have hread : (x.readAs x.header).messageLength = x.message.payload.length ∧
      (x.readAs x.header).messageType = .windowAckSize ∧
      (x.readAs x.header).extended = false := by
    rcases hform with hf | hf
    · simp only [readAs, hf]
      exact ⟨rfl, htype, hext⟩
    · simp only [readAs, hf]
      exact ⟨rfl, htype, hext⟩
  obtain ⟨p', -, hrun⟩ := ChunkStreamParser.messages_chunks hc x.message.csid_ge x.message.csid_le
    hread.2.2 x.message.payload hsize (by rw [hreceived, hread.1, Nat.zero_add])
    (x.reads_head hthree _ x.header)
  have herr := hrun []
  rw [List.append_nil, hbuf, List.nil_append, ChunkStreamParser.finish,
    if_pos ⟨hread.2.1, hshort⟩, ← extendedField_of_lt hfield] at herr
  exact ⟨_, herr⟩

/-- **Only readable messages are delivered** for every chunk size. -/
theorem readable_of_messages (hfollows : x.Follows before)
    (hready : ∀ c, 1 ≤ c → ∃ p : ChunkStreamParser, p.Ready c x.message.chunkStreamId before ∧
      p.messages (x.encode c) = .ok [x.message.payload]) : x.Readable := by
  have hempty : x.form = .type2 → x.message.payload = [] := by
    intro hf
    obtain ⟨p, hp, hok⟩ := hready 1 le_rfl
    rcases messages_type2 le_rfl hp hf with ⟨e, herr⟩ | ⟨p', rest, hrun⟩
    · rw [herr] at hok
      cases hok
    · rw [hrun] at hok
      cases hrest : p'.messages rest with
      | error e =>
          rw [hrest] at hok
          cases hok
      | ok ms =>
          rw [hrest] at hok
          exact (List.cons.inj (Except.ok.inj hok)).1.symm
  have hfield : x.field < 0xFFFFFF := by
    by_contra hlong
    obtain ⟨p, hp, hok⟩ := hready (max 1 x.message.payload.length) (le_max_left _ _)
    by_cases hf : x.form = .type3
    · -- the field is that of the message before, which is readable
      obtain ⟨y, rfl⟩ := follows_some hfollows (by rw [hf]; decide)
      simp only [Follows, hf] at hfollows
      have := hp.1.1
      omega
    · rw [messages_extended hp hf hempty (Nat.not_lt.1 hlong)] at hok
      cases hok
  refine ⟨hfield, fun htype => ?_, hempty⟩
  by_contra hshort
  obtain ⟨p, hp, hok⟩ := hready 1 le_rfl
  by_cases hf : x.form = .type2 ∨ x.form = .type3
  · obtain ⟨y, rfl⟩ := follows_some hfollows (by rcases hf with hf | hf <;> rw [hf] <;> decide)
    obtain ⟨hsameType, hsameLength⟩ := same_of_follows hfollows hf
    have hlong := hp.1.2.1 (hsameType ▸ htype)
    omega
  · have hform : x.form = .type0 ∨ x.form = .type1 := by
      cases hcase : x.form with
      | type0 => exact .inl rfl
      | type1 => exact .inr rfl
      | type2 => exact absurd (.inl hcase) hf
      | type3 => exact absurd (.inr hcase) hf
    obtain ⟨e, herr⟩ := messages_window le_rfl hp hform hfield htype (by omega)
    rw [herr] at hok
    cases hok

end Compressed

/-! ### Sequences -/

/-- **Readable sequences are understood**, from any parser that is ready for them. -/
theorem messages_of_readable {c id : ℕ} (hc : 1 ≤ c) : ∀ {xs : List Compressed}
    {before : Option Compressed} {p : ChunkStreamParser}, p.Ready c id before →
    Conforming id before xs → (∀ x ∈ xs, x.Readable) →
    p.messages (xs.flatMap (Compressed.encode c)) = .ok (xs.map fun x => x.message.payload) := by
  intro xs
  induction xs with
  | nil =>
      intro before p _ _ _
      rfl
  | cons x xs ih =>
      intro before p hready hconf hgood
      obtain ⟨rfl, hfollows, hrest⟩ := hconf
      obtain ⟨p', hready', hrun⟩ := x.step hc hready hfollows (hgood x List.mem_cons_self)
      have htail := ih hready' hrest fun y hy => hgood y (List.mem_cons_of_mem _ hy)
      rw [List.flatMap_cons, hrun, htail]
      rfl

/-- **Only readable sequences are understood** up to every message and for every chunk size. -/
theorem readable_of_prefixes {id : ℕ} : ∀ {xs : List Compressed} {before : Option Compressed},
    Conforming id before xs →
    (∀ c, 1 ≤ c → ∃ p : ChunkStreamParser, p.Ready c id before ∧ ∀ pre, pre <+: xs →
      p.messages (pre.flatMap (Compressed.encode c)) = .ok (pre.map fun x => x.message.payload)) →
    ∀ x ∈ xs, x.Readable := by
  intro xs
  induction xs with
  | nil =>
      intro before _ _ x hx
      cases hx
  | cons x xs ih =>
      intro before hconf hall
      obtain ⟨rfl, hfollows, hrest⟩ := hconf
      have hx : x.Readable := by
        refine Compressed.readable_of_messages hfollows fun c hc => ?_
        obtain ⟨p, hready, hrun⟩ := hall c hc
        have hone := hrun [x] ⟨xs, rfl⟩
        rw [List.flatMap_singleton] at hone
        exact ⟨p, hready, hone⟩
      -- behind a message that is understood the parser is ready again
      have hxs := ih hrest fun c hc => by
        obtain ⟨p, hready, hrun⟩ := hall c hc
        obtain ⟨p', hready', hstep⟩ := x.step hc hready hfollows hx
        refine ⟨p', hready', fun pre hpre => ?_⟩
        have hmore := hrun (x :: pre) (List.cons_prefix_cons.2 ⟨rfl, hpre⟩)
        rw [List.flatMap_cons, hstep] at hmore
        cases hmsgs : p'.messages (pre.flatMap (Compressed.encode c)) with
        | error e =>
            rw [hmsgs] at hmore
            cases hmore
        | ok ms =>
            rw [hmsgs] at hmore
            rw [(List.cons.inj (Except.ok.inj hmore)).2]
      intro y hy
      rcases List.mem_cons.1 hy with rfl | hy
      · exact hx
      · exact hxs y hy

theorem conforming_of_prefixed {id : ℕ} : ∀ {pre xs : List Compressed} {before : Option Compressed},
    pre <+: xs → Conforming id before xs → Conforming id before pre := by
  intro pre
  induction pre with
  | nil =>
      intro xs before _ _
      trivial
  | cons x pre ih =>
      intro xs before hpre hconf
      obtain ⟨rest, rfl⟩ := hpre
      exact ⟨hconf.1, hconf.2.1, ih ⟨rest, rfl⟩ hconf.2.2⟩

theorem ready_freshParser (c id : ℕ) : (freshParser c).Ready c id none := ⟨rfl, rfl, rfl⟩

/-- **What a sender may compress**: what it produces on a chunk stream is understood, up to every
message and for every chunk size, exactly when no timestamp field needs to be extended, no
WindowAckSize is shorter than its window, and only empty messages start with a Type 2 chunk. -/
theorem understood_iff (id : ℕ) (xs : List Compressed) (h : Conforming id none xs) :
    (∀ c, 1 ≤ c → ∀ pre, pre <+: xs → Understood c pre) ↔
      ∀ x ∈ xs, x.field < 0xFFFFFF ∧
        (x.message.messageType = .windowAckSize → 4 ≤ x.message.payload.length) ∧
        (x.form = .type2 → x.message.payload = []) := by
  constructor
  · intro hall
    exact readable_of_prefixes h fun c hc => ⟨freshParser c, ready_freshParser c id, hall c hc⟩
  · intro hgood c hc pre hpre
    exact messages_of_readable hc (ready_freshParser c id) (conforming_of_prefixed hpre h)
      fun x hx => hgood x (hpre.subset hx)

theorem forty_lt : 40 < 2 ^ 32 := by decide

/-- A video message on chunk stream 4 that takes 40 ms. -/
def steadyVideo (form : ChunkType) (timestamp : UInt32) (payload : List UInt8)
    (h : payload.length ≤ 0xFFFFFF := by decide) : Compressed where
  form := form
  message := Message.small .video 2 1 timestamp payload h
  field := 40
  field_lt := forty_lt

/-- Three video messages, the first with a full header, the second without the message stream id,
the third without a header. -/
theorem understood_type1_type3 :
    Understood 128 [steadyVideo .type0 40 [1], steadyVideo .type1 80 [2, 3],
      steadyVideo .type3 120 [4, 5]] := by
  have hconf : Conforming 4 none [steadyVideo .type0 40 [1], steadyVideo .type1 80 [2, 3],
      steadyVideo .type3 120 [4, 5]] :=
    ⟨rfl, ⟨rfl, rfl⟩, rfl, ⟨rfl, rfl⟩, rfl, ⟨rfl, rfl, rfl, rfl, rfl⟩, trivial⟩
  refine (understood_iff 4 _ hconf).2 ?_ 128 (by decide) _ (List.prefix_refl _)
  intro x hx
  simp only [List.mem_cons, List.not_mem_nil, or_false] at hx
  rcases hx with rfl | rfl | rfl
  · exact ⟨by decide, by decide, by decide⟩
  · exact ⟨by decide, by decide, by decide⟩
  · exact ⟨by decide, by decide, by decide⟩

/-- Two video messages of one byte, the second with a Type 2 header: its byte is taken for the
header of the next chunk. -/
theorem not_understood_type2 :
    Conforming 4 none [steadyVideo .type0 40 [7], steadyVideo .type2 80 [8]] ∧
      (freshParser 128).messages
        ([steadyVideo .type0 40 [7], steadyVideo .type2 80 [8]].flatMap (Compressed.encode 128)) =
        .error "Failed to read Type 0 header" ∧
      ¬ Understood 128 [steadyVideo .type0 40 [7], steadyVideo .type2 80 [8]] := by
  have hfail : (freshParser 128).messages
      ([steadyVideo .type0 40 [7], steadyVideo .type2 80 [8]].flatMap (Compressed.encode 128)) =
      .error "Failed to read Type 0 header" := by rfl
  refine ⟨⟨rfl, ⟨rfl, rfl⟩, rfl, ⟨rfl, rfl, rfl, rfl⟩, trivial⟩, hfail, ?_⟩
  intro h
  rw [Understood, hfail] at h
  cases h

end Rtmp

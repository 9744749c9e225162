/-
**Reading the server's replies.**

While it connects, `RtmpPushClient` waits four times for a command from the server:
`read_until_command` in `crates/protocols/src/rtmp/mod.rs` reads from the socket, parses chunks and
returns the values of the first `_result` or `onStatus`.  A call starts with a new parser and an
empty buffer, keeps the bytes of a chunk that did not complete a message in its buffer although the
parser has seen them, throws away what it has read when a chunk is not all there, and drops what is
left in its buffer when it returns.  What comes out therefore depends on how the bytes were cut into
reads.

The socket is the list of what the successive calls of `read` return; after the last of them, and at
an empty one, the connection is closed.

Main definitions:

* `Rtmp.readUntilCommand` — one call;
* `Rtmp.connectScript`, `Rtmp.connectCalls` — the calls `connect` makes, one after another;
* `Rtmp.Unfragmented`, `Rtmp.Aligned` — server messages that the parser takes in one chunk each, and
  reads made of whole messages in which a reply comes last.

Main results:

* `Rtmp.readUntilCommand_aligned` — on aligned reads a call returns the next reply;
* `Rtmp.readUntilCommand_bytes` — **read byte by byte, no stream gives any reply**;
* `Rtmp.connectCalls_aligned` — **two aligned ways to cut a stream give `connect` the same
  replies**.
-/

import MibeeEye.RtmpAmf0
import MibeeEye.RtmpChunkAgreement

set_option relaxedAutoImplicit false
set_option autoImplicit false

namespace Rtmp

open Wire

/-! ### Values of a message -/

/-- The loop of `parse_amf_values`; every value takes at least one byte. -/
def parseAmfValuesF : ℕ → List UInt8 → List Amf0Value
  | 0, _ => []
  | _ + 1, [] => []
  | fuel + 1, b :: data =>
      match Amf0Value.parse (b :: data) with
      | .ok (v, consumed) => v :: parseAmfValuesF fuel ((b :: data).drop consumed)
      | .error _ => []

/-- `RtmpPushClient::parse_amf_values`: the values that decode, from the front. -/
def parseAmfValues (data : List UInt8) : Except String (List Amf0Value) :=
  match parseAmfValuesF data.length data with
  | [] => .error "No AMF values found"
  | values => .ok values

/-- The values of a message that is a reply. -/
def replyValues (msg : List UInt8) : Option (List Amf0Value) :=
  match parseAmfValues msg with
  | .ok (.string s :: values) =>
      if s = "_result" ∨ s = "onStatus" then some (.string s :: values) else none
  | _ => none

/-- The chunk size that `read_until_command` takes from a message of four bytes, whatever its
type. -/
def announcedChunkSize (msg : List UInt8) : Option ℕ :=
  if msg.length = 4 ∧ 1 ≤ ofBe msg ∧ ofBe msg ≤ 0xFFFFFF then some (ofBe msg) else none

/-! ### One call -/

/-- How the inner loop of `read_until_command` ends: with a reply, or with the parser and the
buffer for the next read. -/
inductive Drained
  | reply (values : List Amf0Value)
  | more (parser : ChunkStreamParser) (buf : List UInt8)

/-- The inner loop: parse chunks off the buffer.  The numbers are the acknowledgements sent.
`fuel` bounds the number of chunks. -/
@[grind =] def drainF : ℕ → ChunkStreamParser → List UInt8 → List ℕ × Drained
  | 0, parser, buf => ([], .more parser buf)
  | fuel + 1, parser, buf =>
      match parser.parseChunk buf with
      | (.ok (some msg), parser, buf) =>
          let (ack, parser) := parser.takeAckIfNeeded
          match announcedChunkSize msg with
          | some chunkSize =>
              let (acks, result) := drainF fuel { parser with chunkSize } buf
              (ack.toList ++ acks, result)
          | none =>
              match replyValues msg with
              | some values => (ack.toList, .reply values)
              | none =>
                  let (acks, result) := drainF fuel parser buf
                  (ack.toList ++ acks, result)
      -- more data is needed; the chunk stays in the buffer
      | (.ok none, parser, _) => ([], .more parser buf)
      | (.error _, parser, rest) => ([], .more parser rest)

/-- The inner loop, with one chunk for every byte and one call that finds none. -/
def drain (parser : ChunkStreamParser) (buf : List UInt8) : List ℕ × Drained :=
  drainF (buf.length + 1) parser buf

/-- A call of `read_until_command`: the acknowledgements it sent, and what it returned. -/
structure Call where
  acks : List ℕ
  result : Except String (List Amf0Value)

/-- The outer loop of `read_until_command`, from a parser and a buffer; with the reads left. -/
@[grind =]
def readLoop : ChunkStreamParser → List UInt8 → List (List UInt8) → Call × List (List UInt8)
  | _, _, [] => (⟨[], .error "Connection closed while waiting for RTMP response"⟩, [])
  | parser, buf, tmp :: reads =>
      if tmp = [] then
        (⟨[], .error "Connection closed while waiting for RTMP response"⟩, tmp :: reads)
      else
        match drain parser (buf ++ tmp) with
        | (acks, .reply values) => (⟨acks, .ok values⟩, reads)
        | (acks, .more parser buf) =>
            let (call, reads) := readLoop parser buf reads
            (⟨acks ++ call.acks, call.result⟩, reads)

/-- **`RtmpPushClient::read_until_command`.** -/
def readUntilCommand (reads : List (List UInt8)) : Call × List (List UInt8) :=
  readLoop ChunkStreamParser.new [] reads

/-! ### The calls of `connect` -/

/-- The number after the first null of the values that has one behind it. -/
def numberAfterNull : List Amf0Value → Option UInt64
  | .null :: .number id :: _ => some id
  | _ :: values => numberAfterNull values
  | [] => none

/-- The stream id that `read_stream_id` takes from the reply to `createStream`. -/
def streamIdOf (values : List Amf0Value) : Except String ℕ :=
  match numberAfterNull values with
  | some id => .ok (F64.toU32 id)
  | none =>
      match values.drop 3 with
      | .number id :: _ => .ok (F64.toU32 id)
      | _ => .error "Could not extract stream ID from createStream response"

/-- The order in which `connect` makes its calls, from whichever source they are answered: two
after `connect`, one after `createStream`, and one after `publish` when the third gave a stream
id.  The first call that fails is the last. -/
def connectScript {σ : Type} (call : σ → Call × σ) (s : σ) : List Call :=
  let (c₁, s) := call s
  match c₁.result with
  | .error _ => [c₁]
  | .ok _ =>
      let (c₂, s) := call s
      match c₂.result with
      | .error _ => [c₁, c₂]
      | .ok _ =>
          let (c₃, s) := call s
          match c₃.result >>= streamIdOf with
          | .error _ => [c₁, c₂, c₃]
          | .ok _ => [c₁, c₂, c₃, (call s).1]

/-- **The calls `connect` makes on a socket.** -/
def connectCalls (reads : List (List UInt8)) : List Call := connectScript readUntilCommand reads

/-- The stream id `connect` works with after these calls. -/
def connectStreamId (calls : List Call) : Option ℕ :=
  match calls[2]? with
  | some call => (call.result >>= streamIdOf).toOption
  | none => none

/-! ### Two sources of replies -/

/-- What a script needs of two sources: related sources answer alike, and stay related. -/
def Answers {σ τ : Type} (R : σ → τ → Prop) (call : σ → Call × σ) (call' : τ → Call × τ) : Prop :=
  ∀ s t, R s t → (call s).1.result = (call' t).1.result ∧ R (call s).2 (call' t).2

/-- **The script cannot tell related sources apart.** -/
theorem connectScript_congr {σ τ : Type} {R : σ → τ → Prop} {call : σ → Call × σ}
    {call' : τ → Call × τ} (h : Answers R call call') {s : σ} {t : τ} (hst : R s t) :
    (connectScript call s).map Call.result = (connectScript call' t).map Call.result := by
  obtain ⟨h₁, hst₁⟩ := h s t hst
  obtain ⟨h₂, hst₂⟩ := h _ _ hst₁
  obtain ⟨h₃, hst₃⟩ := h _ _ hst₂
  obtain ⟨h₄, -⟩ := h _ _ hst₃
  simp only [connectScript]
  rw [← h₁, ← h₂, ← h₃]
  cases (call s).1.result with
  | error e => simp [h₁]
  | ok v₁ =>
      cases (call (call s).2).1.result with
      | error e => simp [h₁, h₂]
      | ok v₂ =>
          cases (call (call (call s).2).2).1.result >>= streamIdOf with
          | error e => simp [h₁, h₂, h₃]
          | ok id => simp [h₁, h₂, h₃, h₄]

/-- The stream id depends on the results of the calls only. -/
theorem connectStreamId_congr {calls calls' : List Call}
    (h : calls.map Call.result = calls'.map Call.result) :
    connectStreamId calls = connectStreamId calls' := by
  have hthird : calls[2]?.map Call.result = calls'[2]?.map Call.result := by
    rw [← List.getElem?_map, ← List.getElem?_map, h]
  unfold connectStreamId
  cases h₁ : calls[2]? with
  | none =>
      cases h₂ : calls'[2]? with
      | none => rfl
      | some c => simp [h₁, h₂] at hthird
  | some c =>
      cases h₂ : calls'[2]? with
      | none => simp [h₁, h₂] at hthird
      | some c' =>
          rw [h₁, h₂, Option.map_some, Option.map_some, Option.some.injEq] at hthird
          simp only [hthird]

/-! ### Messages of one chunk -/

/-- The bytes of a message that is sent in one chunk. -/
def Message.oneChunk (m : Message) : List UInt8 := m.firstHead ++ m.payload

/-- The values of a message that ends a call of `read_until_command`. -/
def Message.reply (m : Message) : Option (List Amf0Value) :=
  match announcedChunkSize m.payload with
  | some _ => none
  | none => replyValues m.payload

/-- The chunk size the client parses with after a message: a call starts over with the default. -/
def nextChunkSize (c : ℕ) (m : Message) : ℕ :=
  if m.reply.isSome then ChunkStreamParser.defaultChunkSize
  else (announcedChunkSize m.payload).getD c

/-- **Messages that the client takes in one chunk each**, from chunk size `c` on. -/
def Unfragmented : ℕ → List Message → Prop
  | _, [] => True
  | c, m :: ms => m.Good ∧ m.payload.length ≤ c ∧ Unfragmented (nextChunkSize c m) ms

/-- The calls, answered from the messages themselves. -/
def answer : List Message → Call × List Message
  | [] => (⟨[], .error "Connection closed while waiting for RTMP response"⟩, [])
  | m :: ms =>
      match m.reply with
      | some values => (⟨[], .ok values⟩, ms)
      | none => answer ms

/-- The bytes of a read that carries whole messages. -/
def readOf (g : List Message) : List UInt8 := g.flatMap Message.oneChunk

/-- **Reads made of whole messages in which a reply comes last.** -/
def Aligned (groups : List (List Message)) : Prop :=
  ∀ g ∈ groups, g ≠ [] ∧ ∀ m ∈ g.dropLast, m.reply = none

/-- A parser between two messages. -/
structure Idle (c : ℕ) (p : ChunkStreamParser) : Prop where
  size : p.chunkSize = c
  buffer : p.currentMessage = []
  streams : ∀ id, (p.streams id).receivedBytes = 0

theorem Message.oneChunk_ne_nil (m : Message) : m.oneChunk ≠ [] := by
  simp [Message.oneChunk, Message.firstHead, ChunkBasicHeader.serialize_ne_nil]

/-- **A message of one chunk is parsed in one call.** -/
theorem parseChunk_oneChunk {p : ChunkStreamParser} {m : Message} {c : ℕ} (hc : 1 ≤ c)
    (hp : Idle c p) (hm : m.Good) (hfit : m.payload.length ≤ c) (rest : List UInt8) :
    ∃ p', p.parseChunk (m.oneChunk ++ rest) = (.ok (some m.payload), p', rest) ∧ Idle c p' := by
  have hpieces : m.pieces c = [⟨m.firstHead ++ m.payload, m.payload, true⟩] := by
    rw [Message.pieces, cut_of_le hfit]
    rfl
  obtain ⟨-, hstep⟩ := pieceStep_start hc hm.1 hp.size (hp.streams _) hpieces
  obtain ⟨p', hrun, hsize, hbuf, htrack, hother⟩ := hstep rest
  rw [if_pos rfl, hp.buffer, List.nil_append, deliver_payload_iff.2 hm.2] at hrun
  refine ⟨p', hrun, hsize, by simpa using hbuf, ?_⟩
  intro id
  by_cases hid : id = m.chunkStreamId
  · subst hid
    simpa [Progress.after, Tracks] using htrack
  · rw [hother id hid]
    exact hp.streams id

theorem Idle.takeAckIfNeeded {c : ℕ} {p : ChunkStreamParser} (hp : Idle c p) :
    Idle c p.takeAckIfNeeded.2 := by
  unfold ChunkStreamParser.takeAckIfNeeded
  split
  · exact ⟨hp.size, hp.buffer, hp.streams⟩
  · exact hp

theorem Idle.withChunkSize {c c' : ℕ} {p : ChunkStreamParser} (hp : Idle c p) :
    Idle c' { p with chunkSize := c' } :=
  ⟨rfl, hp.buffer, hp.streams⟩

theorem idle_new : Idle ChunkStreamParser.defaultChunkSize ChunkStreamParser.new :=
  ⟨rfl, rfl, fun _ => rfl⟩

/-- A chunk size that a message announces is positive. -/
theorem one_le_of_announced {msg : List UInt8} {c : ℕ} (h : announcedChunkSize msg = some c) :
    1 ≤ c := by
  unfold announcedChunkSize at h
  split at h
  · rename_i hcond
    cases h
    exact hcond.2.1
  · cases h

/-! ### Aligned reads -/

/-- What the inner loop does with a read of whole messages, of which only the last may be a reply,
when `ms` are the messages after it. -/
theorem drainF_readOf {ms : List Message} : ∀ {g : List Message} {p : ChunkStreamParser}
    {c fuel : ℕ}, 1 ≤ c → Idle c p → Unfragmented c (g ++ ms) →
    (∀ m ∈ g.dropLast, m.reply = none) → (readOf g).length < fuel →
    ∃ acks,
      (∃ v, drainF fuel p (readOf g) = (acks, .reply v) ∧ answer (g ++ ms) = (⟨[], .ok v⟩, ms) ∧
        Unfragmented ChunkStreamParser.defaultChunkSize ms) ∨
      ∃ p' c', drainF fuel p (readOf g) = (acks, .more p' []) ∧ 1 ≤ c' ∧ Idle c' p' ∧
        answer (g ++ ms) = answer ms ∧ Unfragmented c' ms := by
  intro g
  induction g with
  | nil =>
      intro p c fuel hc hp hfit _ hfuel
      obtain ⟨fuel, rfl⟩ : ∃ k, fuel = k + 1 := ⟨fuel - 1, by omega⟩
      exact ⟨[], Or.inr ⟨p, c, rfl, hc, hp, rfl, hfit⟩⟩
  | cons m g ih =>
      intro p c fuel hc hp hfit hlast hfuel
      obtain ⟨hgood, hlen, hrest⟩ := hfit
      have hbytes : readOf (m :: g) = m.oneChunk ++ readOf g := by
        rw [readOf, List.flatMap_cons]
        rfl
      have hpos := List.length_pos_iff.2 m.oneChunk_ne_nil
      rw [hbytes, List.length_append] at hfuel
      obtain ⟨fuel, rfl⟩ : ∃ k, fuel = k + 1 := ⟨fuel - 1, by omega⟩
      have hfuel' : (readOf g).length < fuel := by omega
      obtain ⟨p₁, hrun, hp₁⟩ := parseChunk_oneChunk hc hp hgood hlen (readOf g)
      have hlast' : ∀ m' ∈ g.dropLast, m'.reply = none := by
        intro m' hm'
        cases g with
        | nil => simp at hm'
        | cons a g => exact hlast m' (List.mem_cons_of_mem _ hm')
      rw [hbytes, drainF, hrun]
      dsimp only
      cases hsize : announcedChunkSize m.payload with
      | some size =>
          -- a message of four bytes that announces a chunk size
          dsimp only
          have hreply : m.reply = none := by simp [Message.reply, hsize]
          have hnext : nextChunkSize c m = size := by simp [nextChunkSize, hreply, hsize]
          rw [hnext] at hrest
          obtain ⟨acks, h⟩ := ih (one_le_of_announced hsize) hp₁.takeAckIfNeeded.withChunkSize hrest
            hlast' hfuel'
          refine ⟨p₁.takeAckIfNeeded.1.toList ++ acks, ?_⟩
          rw [List.cons_append, answer, hreply]
          rcases h with ⟨v, hd, ha, hu⟩ | ⟨p', c', hd, hc', hp', ha, hu⟩
          · exact Or.inl ⟨v, by rw [hd], ha, hu⟩
          · exact Or.inr ⟨p', c', by rw [hd], hc', hp', ha, hu⟩
      | none =>
          dsimp only
          cases hv : replyValues m.payload with
          | some v =>
              -- the reply, which ends the read
              have hreply : m.reply = some v := by simp [Message.reply, hsize, hv]
              cases g with
              | nil =>
                  have hnext : nextChunkSize c m = ChunkStreamParser.defaultChunkSize := by
                    simp [nextChunkSize, hreply]
                  rw [hnext] at hrest
                  refine ⟨p₁.takeAckIfNeeded.1.toList, Or.inl ⟨v, rfl, ?_, hrest⟩⟩
                  rw [List.cons_append, answer, hreply]
                  rfl
              | cons a g =>
                  have := hlast m (by simp)
                  rw [hreply] at this
                  cases this
          | none =>
              have hreply : m.reply = none := by simp [Message.reply, hsize, hv]
              have hnext : nextChunkSize c m = c := by simp [nextChunkSize, hreply, hsize]
              rw [hnext] at hrest
              obtain ⟨acks, h⟩ := ih hc hp₁.takeAckIfNeeded hrest hlast' hfuel'
              refine ⟨p₁.takeAckIfNeeded.1.toList ++ acks, ?_⟩
              rw [List.cons_append, answer, hreply]
              rcases h with ⟨v, hd, ha, hu⟩ | ⟨p', c', hd, hc', hp', ha, hu⟩
              · exact Or.inl ⟨v, by rw [hd], ha, hu⟩
              · exact Or.inr ⟨p', c', by rw [hd], hc', hp', ha, hu⟩

/-- The outer loop on aligned reads, from a parser between two messages. -/
theorem readLoop_aligned : ∀ {groups : List (List Message)} {p : ChunkStreamParser} {c : ℕ},
    1 ≤ c → Idle c p → Aligned groups → Unfragmented c groups.flatten →
    (readLoop p [] (groups.map readOf)).1.result = (answer groups.flatten).1.result ∧
      ∃ groups', (readLoop p [] (groups.map readOf)).2 = groups'.map readOf ∧ Aligned groups' ∧
        groups'.flatten = (answer groups.flatten).2 ∧
        Unfragmented ChunkStreamParser.defaultChunkSize groups'.flatten := by
  intro groups
  induction groups with
  | nil =>
      intro p c _ _ _ _
      exact ⟨rfl, [], rfl, by simp [Aligned], rfl, trivial⟩
  | cons g groups ih =>
      intro p c hc hp hal hfit
      obtain ⟨hne, hlast⟩ := hal g (by simp)
      have hal' : Aligned groups := fun g' hg' => hal g' (by simp [hg'])
      have hread : readOf g ≠ [] := by
        obtain ⟨m, g, rfl⟩ := List.exists_cons_of_ne_nil hne
        simp [readOf, m.oneChunk_ne_nil]
      obtain ⟨acks, h⟩ := drainF_readOf (g := g) hc hp hfit hlast (Nat.lt_succ_self _)
      rw [List.map_cons, readLoop, if_neg hread, List.nil_append, drain, List.flatten_cons]
      rcases h with ⟨v, hd, ha, hu⟩ | ⟨p', c', hd, hc', hp', ha, hu⟩
      · rw [hd, ha]
        exact ⟨rfl, groups, rfl, hal', rfl, hu⟩
      · rw [hd, ha]
        exact ih hc' hp' hal' hu

/-- **Reads cut at the ends of messages**, with every reply at the end of its read. -/
def WellCut (reads : List (List UInt8)) (ms : List Message) : Prop :=
  ∃ groups, reads = groups.map readOf ∧ Aligned groups ∧ groups.flatten = ms ∧
    Unfragmented ChunkStreamParser.defaultChunkSize ms

/-- On aligned reads a call returns the next reply of the stream. -/
theorem readUntilCommand_aligned : Answers WellCut readUntilCommand answer := by
  rintro reads ms ⟨groups, rfl, hal, rfl, hfit⟩
  obtain ⟨hres, groups', hreads, hal', hflat, hfit'⟩ :=
    readLoop_aligned (by decide) idle_new hal hfit
  refine ⟨hres, groups', hreads, hal', hflat, ?_⟩
  rw [← hflat]
  exact hfit'

/-! ### Equal bytes are equal messages -/

/-- A reader that reads two byte strings in front of the same bytes reads the same from them. -/
theorem reads_unique {ε α : Type} {r : Reader ε α} {bs cs s t : List UInt8} {a b : α}
    (h₁ : Reads r bs a) (h₂ : Reads r cs b) (h : bs ++ s = cs ++ t) : a = b ∧ s = t := by
  have hrun := h₁ s
  rw [h, h₂ t] at hrun
  obtain ⟨hab, hst⟩ := Prod.mk.inj hrun
  exact ⟨(Except.ok.inj hab).symm, hst.symm⟩

/-- The first message of a byte string is determined by the bytes. -/
theorem Message.oneChunk_append_inj {m m' : Message} {s t : List UInt8}
    (h : m.oneChunk ++ s = m'.oneChunk ++ t) : m = m' ∧ s = t := by
  simp only [Message.oneChunk, Message.firstHead, List.append_assoc] at h
  obtain ⟨hbasic, h⟩ := reads_unique (ChunkBasicHeader.reads_serialize .type0 m.csid_ge m.csid_le)
    (ChunkBasicHeader.reads_serialize .type0 m'.csid_ge m'.csid_le) h
  have hheader : ∀ m : Message,
      Reads (ChunkMessageHeader.parse .type0) (m.header.serialize .type0) m.header := fun m =>
    m.header.reads_serialize_type0 m.timestamp_lt
      (by rw [m.header_messageLength]; exact m.payload_le) rfl m.msid_lt rfl
  obtain ⟨hhead, h⟩ := reads_unique (hheader m) (hheader m') h
  have hlen : m.payload.length = m'.payload.length := by
    rw [← m.header_messageLength, hhead, m'.header_messageLength]
  obtain ⟨hpayload, hrest⟩ := List.append_inj h hlen
  refine ⟨?_, hrest⟩
  have hcsid : m.chunkStreamId = m'.chunkStreamId := congrArg ChunkBasicHeader.chunkStreamId hbasic
  have htype : m.messageType = m'.messageType := congrArg ChunkMessageHeader.messageType hhead
  have hts : m.timestamp = m'.timestamp := congrArg ChunkMessageHeader.timestamp hhead
  have hmsid : some m.messageStreamId = some m'.messageStreamId :=
    congrArg ChunkMessageHeader.messageStreamId hhead
  cases m
  cases m'
  simp only at hcsid htype hts hpayload
  cases hmsid
  subst hcsid htype hts hpayload
  rfl

/-- **Equal bytes carry equal messages.** -/
theorem readOf_injective : ∀ {ms ms' : List Message}, readOf ms = readOf ms' → ms = ms' := by
  intro ms
  induction ms with
  | nil =>
      intro ms' h
      cases ms' with
      | nil => rfl
      | cons m ms' => simp [readOf, m.oneChunk_ne_nil] at h
  | cons m ms ih =>
      intro ms' h
      cases ms' with
      | nil => simp [readOf, m.oneChunk_ne_nil] at h
      | cons m' ms' =>
          rw [readOf, readOf, List.flatMap_cons, List.flatMap_cons] at h
          obtain ⟨hm, hrest⟩ := Message.oneChunk_append_inj h
          rw [hm, ih hrest]

theorem WellCut.flatten {reads : List (List UInt8)} {ms : List Message} (h : WellCut reads ms) :
    reads.flatten = readOf ms := by
  obtain ⟨groups, rfl, -, rfl, -⟩ := h
  induction groups with
  | nil => rfl
  | cons g groups ih =>
      rw [List.map_cons, List.flatten_cons, ih, List.flatten_cons, readOf, readOf, readOf,
        List.flatMap_append]

/-! ### Reading byte by byte -/

/-- A basic header of one byte, or the failure to read one, uses up the byte. -/
theorem basicHeader_byte (b : UInt8) : (ChunkBasicHeader.parse [b]).2 = [] := by
  have hfirst : readExact "Failed to read first byte of basic header" 1 [b] = (.ok [b], []) := rfl
  rw [ChunkBasicHeader.parse, Reader.bind_of_ok hfirst]
  dsimp only [List.headD_cons]
  cases ht : ChunkType.fromU8 ((b >>> 6) &&& 0x03) with
  | error e => rfl
  | ok t =>
      rw [Reader.bind_of_ok (r := Reader.ofExcept (.ok t)) rfl]
      have hcsid : ∃ x, ChunkBasicHeader.parseCsid (b &&& 0x3F).toNat [] = (x, []) := by
        unfold ChunkBasicHeader.parseCsid
        split
        · exact ⟨_, rfl⟩
        · split
          · exact ⟨_, rfl⟩
          · split
            · exact ⟨_, rfl⟩
            · exact ⟨_, rfl⟩
      obtain ⟨x, hx⟩ := hcsid
      cases x with
      | error e => rw [Reader.bind_of_error hx]
      | ok id =>
          rw [Reader.bind_of_ok hx]
          rfl

/-- A parser that has seen no header fails on a chunk of one byte and has then used it up. -/
theorem parseChunk_byte {p : ChunkStreamParser} (hp : ∀ id, (p.streams id).lastHeader = none)
    (b : UInt8) : ∃ e, p.parseChunk [b] = (.error e, p, []) := by
  have hrest := basicHeader_byte b
  unfold ChunkStreamParser.parseChunk
  cases hbasic : ChunkBasicHeader.parse [b] with
  | mk x rest =>
      rw [hbasic] at hrest
      subst hrest
      cases x with
      | error e => exact ⟨e, rfl⟩
      | ok basic =>
          have hheader : ∃ e, ChunkStreamParser.readHeader basic
              (p.streams basic.chunkStreamId) [] = (.error e, []) := by
            unfold ChunkStreamParser.readHeader
            rw [hp]
            cases basic.chunkType with
            | type0 => exact ⟨_, rfl⟩
            | type1 => exact ⟨_, rfl⟩
            | type2 => exact ⟨_, rfl⟩
            | type3 => exact ⟨_, rfl⟩
          obtain ⟨e, he⟩ := hheader
          exact ⟨e, by simp only [he]⟩

theorem drain_byte {p : ChunkStreamParser} (hp : ∀ id, (p.streams id).lastHeader = none)
    (b : UInt8) : drain p [b] = ([], .more p []) := by
  obtain ⟨e, he⟩ := parseChunk_byte hp b
  rw [drain, drainF, he]

/-- **Read byte by byte, no stream gives any reply.** -/
theorem readUntilCommand_bytes (bs : List UInt8) :
    readUntilCommand (bs.map fun b => [b])
      = (⟨[], .error "Connection closed while waiting for RTMP response"⟩, []) := by
  unfold readUntilCommand
  induction bs with
  | nil => rfl
  | cons b bs ih =>
      rw [List.map_cons, readLoop, if_neg (by simp), List.nil_append, drain_byte (fun _ => rfl)]
      dsimp only
      rw [ih]
      rfl

/-! ### Cutting the stream -/

/-- Cut into single bytes, the same stream gives `connect` nothing at all: one call, which fails. -/
theorem connectCalls_bytes (bs : List UInt8) :
    (connectCalls (bs.map fun b => [b])).map Call.result
      = [.error "Connection closed while waiting for RTMP response"] := by
  simp only [connectCalls, connectScript, readUntilCommand_bytes, List.map_cons, List.map_nil]

/-- A WindowAckSize message. -/
def windowAckMessage : Message := .small .windowAckSize 0 0 0 [0x80, 0, 0, 0]

/-- A `_result` without arguments. -/
def resultMessage : Message :=
  .small .command 1 0 0 [0x02, 0x00, 0x07, 0x5F, 0x72, 0x65, 0x73, 0x75, 0x6C, 0x74]

end Rtmp

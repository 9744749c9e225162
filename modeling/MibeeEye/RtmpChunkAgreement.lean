/-
**Do the chunk writer and the chunk parser agree?**

`RtmpPushClient::write_chunked` and `ChunkStreamParser` are the two ends of the same format, so the
bytes of a sequence of messages, parsed by a fresh parser of the same chunk size, should give back
the payloads.  They do as long as no timestamp needs the extended timestamp field.  For those that
do, the writer puts the field where the format has it, at the end of the message header, and
`ChunkMessageHeader::parse` takes it from there; but `parse_chunk` then looks for it once more after
the chunk's data and eats four bytes that belong to the next chunk, or fails when there are none.

The parser also acts on WindowAckSize messages, and refuses one that is shorter than its window.

Main definitions:

* `Rtmp.Agrees` — the payloads come back, in order, without an error and without a byte left over.

Main results:

* `Rtmp.agrees_of_good` — every list of messages without an extended timestamp and without a
  WindowAckSize of less than four bytes comes back, for every chunk size;
* `Rtmp.agrees_prefixes_iff` — **and only those do**, at every moment and for every chunk size.
-/

import MibeeEye.RtmpChunkWriter
import Mathlib.Data.List.Basic
import Mathlib.Data.List.ReduceOption

set_option relaxedAutoImplicit false
set_option autoImplicit false

namespace Rtmp

open Wire

/-- A fresh parser that has been told the sender's chunk size. -/
def freshParser (c : ℕ) : ChunkStreamParser := { ChunkStreamParser.new with chunkSize := c }

/-- **Agreement**: the bytes the writer produces for the messages, fed to a fresh parser until
they are exhausted, give exactly the payloads. -/
def Agrees (c : ℕ) (ms : List Message) : Prop :=
  ∃ rs, (freshParser c).parseAll (ms.flatMap (Message.wire c)) = .ok rs ∧
    rs.reduceOption = ms.map Message.payload

/-- A message that the parser and the writer treat alike. -/
def Message.Good (m : Message) : Prop := m.timestamp < 0xFFFFFF ∧ m.Deliverable

instance (m : Message) : Decidable m.Good :=
  inferInstanceAs (Decidable (m.timestamp < 0xFFFFFF ∧ m.Deliverable))

/-! ### Good messages -/

theorem wire_flatMap {c : ℕ} (hc : 1 ≤ c) (ms : List Message) :
    ms.flatMap (Message.wire c) = (ms.flatMap (Message.owned c)).flatMap fun x => x.2.wire := by
  rw [List.flatMap_assoc]
  refine List.flatMap_congr ?_
  intro m _
  rw [m.wire_eq_pieces hc, Message.owned, List.flatMap_map]

theorem reduceOption_expected (m : Message) {c : ℕ} (hc : 1 ≤ c) :
    ((m.pieces c).map m.expected).reduceOption = [m.payload] := by
  obtain ⟨front, final, hsplit, hfront, hfinal, -⟩ := m.pieces_split hc
  have hnone : front.map m.expected = front.map fun _ => none := by
    refine List.map_congr_left ?_
    intro q hq
    simp [Message.expected, (hfront q hq).1]
  rw [hsplit, List.map_append, List.reduceOption_append, hnone]
  simp [Message.expected, hfinal, List.reduceOption]

/-- Good messages, with anything behind them: the parser delivers their payloads and is as good as
new for what follows. -/
theorem parseAll_good {c : ℕ} (hc : 1 ≤ c) {ms : List Message} (hgood : ∀ m ∈ ms, m.Good)
    (tail : List UInt8) :
    ∃ p' : ChunkStreamParser, p'.chunkSize = c ∧ p'.currentMessage = [] ∧
      (∀ id, (p'.streams id).receivedBytes = 0) ∧
      (freshParser c).parseAll (ms.flatMap (Message.wire c) ++ tail) =
        (p'.parseAll tail).map ((ms.flatMap fun m => (m.pieces c).map m.expected) ++ ·) := by
  have hts : ∀ x ∈ ms.flatMap (Message.owned c), x.1.timestamp < 0xFFFFFF := by
    intro x hx
    obtain ⟨m, hm, hx⟩ := List.mem_flatMap.1 hx
    obtain ⟨q, _, rfl⟩ := List.mem_map.1 hx
    exact (hgood m hm).1
  have hparse := parseAll_schedule hc (schedule_flatMap_owned hc ms) (p := freshParser c) rfl
    (fun _ => rfl) hts tail
  have hrun : sharedRun (freshParser c).currentMessage (ms.flatMap (Message.owned c)) =
      .ok (ms.flatMap fun m => (m.pieces c).map m.expected, []) :=
    sharedRun_flatMap_owned hc fun m hm => (hgood m hm).2
  simp only [hrun] at hparse
  obtain ⟨p', hsize, hbuf, htrack, hall⟩ := hparse
  exact ⟨p', hsize, hbuf, htrack, by rw [wire_flatMap hc, hall]⟩

/-- **Good messages come back**, for every chunk size. -/
theorem agrees_of_good {c : ℕ} (hc : 1 ≤ c) {ms : List Message} (hgood : ∀ m ∈ ms, m.Good) :
    Agrees c ms := by
  obtain ⟨p', -, -, -, hall⟩ := parseAll_good hc hgood []
  rw [List.append_nil, ChunkStreamParser.parseAll_nil] at hall
  refine ⟨ms.flatMap fun m => (m.pieces c).map m.expected, by simpa [Except.map] using hall, ?_⟩
  clear hall hgood
  induction ms with
  | nil => rfl
  | cons m ms ih =>
      rw [List.flatMap_cons, List.reduceOption_append, reduceOption_expected m hc, ih]
      rfl

/-! ### The first message that is not good -/

/-- An undeliverable message ends the run with an error, whatever comes behind it. -/
theorem not_agrees_undeliverable {c : ℕ} (hc : 1 ≤ c) {ms : List Message} {m : Message}
    (hgood : ∀ m' ∈ ms, m'.Good) (hts : m.timestamp < 0xFFFFFF) (hbad : ¬ m.Deliverable) :
    ¬ Agrees c (ms ++ [m]) := by
  rintro ⟨rs, hrs, -⟩
  obtain ⟨p', hsize, hbuf, htrack, hall⟩ := parseAll_good hc hgood (m.wire c)
  have hsched : Schedule c (fun _ => .idle) (m.owned c ++ []) (fun _ => .idle) :=
    schedule_owned hc rfl (Schedule.nil _)
  have hparse := parseAll_schedule hc hsched hsize htrack (by
    intro x hx
    rw [List.append_nil] at hx
    obtain ⟨q, _, rfl⟩ := List.mem_map.1 hx
    exact hts) []
  -- the run of the last message ends with the error of its delivery
  obtain ⟨e, he⟩ : ∃ e, deliver m m.payload = .error e := by
    cases hdel : deliver m m.payload with
    | error e => exact ⟨e, rfl⟩
    | ok r => exact absurd (deliver_payload_iff.1 (deliver_eq_of_ok hdel ▸ hdel)) hbad
  have hrun : sharedRun p'.currentMessage (m.owned c ++ []) = .error e := by
    rw [hbuf, sharedRun_owned hc, he]
  simp only [hrun] at hparse
  rw [List.append_nil, List.append_nil] at hparse
  have hwire : m.wire c = (m.owned c).flatMap fun x => x.2.wire := by
    simpa using wire_flatMap hc [m]
  rw [List.flatMap_append, List.flatMap_singleton, hall, hwire, hparse] at hrs
  simp [Except.map] at hrs

/-- A message that needs the extended timestamp and fits one chunk: the second look for the
extended timestamp finds the end of the bytes. -/
theorem not_agrees_extended {ms : List Message} {m : Message} (hgood : ∀ m' ∈ ms, m'.Good)
    (hts : 0xFFFFFF ≤ m.timestamp) : ¬ Agrees (max 1 m.payload.length) (ms ++ [m]) := by
  rintro ⟨rs, hrs, -⟩
  set c := max 1 m.payload.length with hc
  obtain ⟨p', hsize, -, hidle, hall⟩ := parseAll_good (le_max_left 1 m.payload.length) hgood
    (m.wire c)
  have hwire : m.wire c = m.firstHead ++ m.payload := by
    rw [m.wire_eq_pieces (le_max_left 1 m.payload.length), Message.pieces, cut_of_le (by omega)]
    simp [Message.contPieces]
  have hh : Reads (ChunkStreamParser.readHeader ⟨.type0, m.chunkStreamId⟩
      (p'.streams m.chunkStreamId)) (m.header.serialize .type0) m.header :=
    m.header.reads_serialize_type0 m.timestamp_lt
      (by rw [m.header_messageLength]; exact m.payload_le) rfl m.msid_lt rfl
  have hlen : m.payload.length = p'.chunkDataSize m.chunkStreamId m.header := by
    rw [ChunkStreamParser.chunkDataSize, hidle m.chunkStreamId, hsize, m.header_messageLength]
    omega
  have herr := ChunkStreamParser.parseChunk_extended (p := p')
    (ChunkBasicHeader.reads_serialize .type0 m.csid_ge m.csid_le) hh hlen
    (by simpa [Message.header, writtenHeader] using hts)
  have hfail : p'.parseAll (m.wire c) = .error "Failed to read extended timestamp" := by
    rw [hwire]
    exact ChunkStreamParser.parseAll_of_error
      (by simp [Message.firstHead, ChunkBasicHeader.serialize_ne_nil]) herr
  rw [List.flatMap_append, List.flatMap_singleton, hall, hfail] at hrs
  simp [Except.map] at hrs

/-- A list that is not good throughout has a first message that is not. -/
theorem exists_first_bad {ms : List Message} (h : ¬ ∀ m ∈ ms, m.Good) :
    ∃ pre m, pre ++ [m] <+: ms ∧ (∀ m' ∈ pre, m'.Good) ∧ ¬ m.Good := by
  induction ms with
  | nil => exact absurd (by simp) h
  | cons m ms ih =>
      by_cases hm : m.Good
      · obtain ⟨pre, m', hpre, hgood, hbad⟩ := ih fun hall => h (by simpa [hm] using hall)
        refine ⟨m :: pre, m', List.cons_prefix_cons.2 ⟨rfl, hpre⟩, ?_, hbad⟩
        intro x hx
        rcases List.mem_cons.1 hx with rfl | hx
        · exact hm
        · exact hgood x hx
      · exact ⟨[], m, by simp, by simp, hm⟩

/-- **Exactly the good messages come back**: the writer and the parser agree at every moment of a
run and for every chunk size if and only if no message needs the extended timestamp and no
WindowAckSize message is shorter than its window. -/
theorem agrees_prefixes_iff (ms : List Message) :
    (∀ c, 1 ≤ c → ∀ pre, pre <+: ms → Agrees c pre) ↔
      ∀ m ∈ ms, m.timestamp < 0xFFFFFF ∧
        (m.messageType = .windowAckSize → 4 ≤ m.payload.length) := by
  constructor
  · intro h
    by_contra hbad
    obtain ⟨pre, m, hpre, hgood, hm⟩ := exists_first_bad hbad
    by_cases hts : m.timestamp < 0xFFFFFF
    · exact not_agrees_undeliverable le_rfl hgood hts (fun hd => hm ⟨hts, hd⟩) (h 1 le_rfl _ hpre)
    · exact not_agrees_extended hgood (by omega) (h _ (le_max_left _ _) _ hpre)
  · intro hgood c hc pre hpre
    exact agrees_of_good hc fun m hm => hgood m (hpre.subset hm)

/-- A video message of one byte at timestamp `0xFFFFFF` does not come back. -/
theorem not_agrees_timestamp_max :
    ¬ Agrees 128 [
      { chunkStreamId := 5, messageType := .video, messageStreamId := 1
        timestamp := 0xFFFFFF, payload := [0xAA] }] := by
  rintro ⟨rs, hrs, -⟩
  have hfail : (freshParser 128).parseAll (List.flatMap (Message.wire 128) [
      { chunkStreamId := 5, messageType := .video, messageStreamId := 1
        timestamp := 0xFFFFFF, payload := [0xAA] }])
      = .error "Failed to read extended timestamp" := by rfl
  rw [hfail] at hrs
  simp at hrs

/- For one list and one chunk size the condition is not necessary: the four bytes eaten after the
first chunk of the second message can leave a remainder that happens to parse as continuation
chunks of the first message's stream. -/
example : Agrees 2 [
    { chunkStreamId := 3, messageType := .video, messageStreamId := 1
      timestamp := 0, payload := [1, 2, 3, 4] },
    { chunkStreamId := 50179, messageType := .video, messageStreamId := 1
      timestamp := 0xFFFFFF, payload := [7, 8, 0xC1, 0xC3, 9, 10] }] :=
  ⟨[none, some [1, 2, 3, 4], none, none, some [7, 8, 0xC1, 0xC3, 9, 10]], by rfl, by rfl⟩

end Rtmp

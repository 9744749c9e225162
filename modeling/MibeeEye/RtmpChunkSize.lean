/-
**Which messages change the chunk size.**

A server changes the size of the chunks it sends with a SetChunkSize message.  The parser returns
the payload of a message without its type, so `RtmpPushClient::read_until_command` in
`crates/protocols/src/rtmp/mod.rs` guesses: a payload of four bytes that is a number from 1 to
`0xFFFFFF` is taken for a chunk size.  A window size, a bandwidth limit without its type, an
acknowledgement or an abort of four bytes is then a chunk size as well; and a chunk size whose top
bit is set, which `handle_set_chunk_size` clears, is none.

The messages are those of any conforming sender, on any chunk streams and with any header
compression, each in one chunk of its own.

Main definitions:

* `Rtmp.lastSetChunkSize` — the chunk size that the messages so far have announced;
* `Rtmp.ServerStream` — messages a server may send, each in one chunk;
* `Rtmp.afterReads` — the parser and the buffer of `read_until_command` after some reads;
* `Rtmp.ChunkSizeFollows` — the chunk size is the announced one after each message.

Main results:

* `Rtmp.drainF_whole`, `Rtmp.afterReads_whole` — what the messages do to the parser;
* `Rtmp.chunkSizeFollows_iff` — **the chunk size is right throughout exactly when every SetChunkSize
  is seen and no other message is taken for one**.
-/

import MibeeEye.RtmpCompression
import MibeeEye.RtmpReplies
import Mathlib.Data.List.Induction

set_option relaxedAutoImplicit false
set_option autoImplicit false

namespace Rtmp

open Wire

/-! ### What the server announces -/

/-- The chunk size that a SetChunkSize message announces, its top bit cleared. -/
def Message.setChunkSize (m : Message) : Option ℕ :=
  if m.messageType = .setChunkSize ∧ 4 ≤ m.payload.length then
    some (ofBe (m.payload.take 4) % 2 ^ 31)
  else none

/-- **The value of the last SetChunkSize**, or `c` if there is none. -/
def lastSetChunkSize (c : ℕ) (xs : List Compressed) : ℕ :=
  ((xs.filterMap fun x => x.message.setChunkSize).getLast?).getD c

/-- **Messages a server may send**, from the given last messages of its chunk streams and chunk
size: each follows the one before it on its chunk stream, and is sent in one chunk. -/
@[grind =] def ServerStream : (ℕ → Option Compressed) → ℕ → List Compressed → Prop
  | _, _, [] => True
  | before, c, x :: xs =>
      x.Follows (before x.message.chunkStreamId) ∧ x.message.payload.length ≤ c ∧
        ServerStream (Function.update before x.message.chunkStreamId (some x))
          (x.message.setChunkSize.getD c) xs

/-- The last message of each chunk stream. -/
def lastMessages (before : ℕ → Option Compressed) : List Compressed → ℕ → Option Compressed
  | [] => before
  | x :: xs => lastMessages (Function.update before x.message.chunkStreamId (some x)) xs

/-- The bytes of a message in one chunk. -/
def Compressed.whole (x : Compressed) : List UInt8 :=
  ChunkBasicHeader.serialize ⟨x.form, x.message.chunkStreamId⟩ ++ x.head ++ x.message.payload

/-- The bytes of a read that carries whole messages. -/
def wholeRead (g : List Compressed) : List UInt8 := g.flatMap Compressed.whole

theorem lastSetChunkSize_cons (c : ℕ) (x : Compressed) (xs : List Compressed) :
    lastSetChunkSize c (x :: xs) = lastSetChunkSize (x.message.setChunkSize.getD c) xs := by
  unfold lastSetChunkSize
  rw [List.filterMap_cons]
  cases hv : x.message.setChunkSize with
  | none => rfl
  | some v =>
      dsimp only
      rw [List.getLast?_cons, Option.getD_some, Option.getD_some]

theorem serverStream_append {xs ys : List Compressed} : ∀ {before : ℕ → Option Compressed} {c : ℕ},
    ServerStream before c (xs ++ ys) ↔ ServerStream before c xs ∧
      ServerStream (lastMessages before xs) (lastSetChunkSize c xs) ys := by
  induction xs with
  | nil =>
      intro before c
      exact (and_iff_right trivial).symm
  | cons x xs ih =>
      intro before c
      simp only [List.cons_append, ServerStream, ih, lastMessages, lastSetChunkSize_cons, and_assoc]

theorem lastSetChunkSize_append (c : ℕ) (xs ys : List Compressed) :
    lastSetChunkSize c (xs ++ ys) = lastSetChunkSize (lastSetChunkSize c xs) ys := by
  induction xs generalizing c with
  | nil => rfl
  | cons x xs ih => rw [List.cons_append, lastSetChunkSize_cons, ih, ← lastSetChunkSize_cons]

/-! ### The client -/

/-- How the loops of `read_until_command` stand after the given reads, from a parser and a
buffer. -/
@[grind =] def afterReads : ChunkStreamParser → List UInt8 → List (List UInt8) → Drained
  | parser, buf, [] => .more parser buf
  | parser, buf, tmp :: reads =>
      match (drain parser (buf ++ tmp)).2 with
      | .reply values => .reply values
      | .more parser buf => afterReads parser buf reads

/-- **The reads of a call, cut in two**: `read_until_command` goes on from where it stands. -/
theorem readLoop_append {reads more : List (List UInt8)} : ∀ {parser parser' : ChunkStreamParser}
    {buf buf' : List UInt8}, (∀ tmp ∈ reads, tmp ≠ []) →
    afterReads parser buf reads = .more parser' buf' →
    ∃ acks, (readLoop parser buf (reads ++ more)).1.acks =
        acks ++ (readLoop parser' buf' more).1.acks ∧
      (readLoop parser buf (reads ++ more)).1.result = (readLoop parser' buf' more).1.result ∧
      (readLoop parser buf (reads ++ more)).2 = (readLoop parser' buf' more).2 := by
  induction reads with
  | nil =>
      intro parser parser' buf buf' _ h
      obtain ⟨rfl, rfl⟩ := Drained.more.inj h
      exact ⟨[], rfl, rfl, rfl⟩
  | cons tmp reads ih =>
      intro parser parser' buf buf' hne h
      rw [afterReads] at h
      cases hdrain : drain parser (buf ++ tmp) with
      | mk acks result =>
          rw [hdrain] at h
          cases result with
          | reply values => cases h
          | more parser₁ buf₁ =>
              obtain ⟨acks', hacks, hres, hreads⟩ :=
                ih (fun t ht => hne t (List.mem_cons_of_mem _ ht)) h
              rw [List.cons_append, readLoop, if_neg (hne tmp List.mem_cons_self), hdrain]
              refine ⟨acks ++ acks', ?_, hres, hreads⟩
              rw [List.append_assoc, ← hacks]

/-- The chunk size of the client after a message. -/
def clientChunkSize (c : ℕ) (x : Compressed) : ℕ := (announcedChunkSize x.message.payload).getD c

/-- **The chunk size is right after each message** that a call reads before its reply, however the
messages are spread over the reads. -/
def ChunkSizeFollows (xs : List Compressed) : Prop :=
  ∀ groups : List (List Compressed), groups.flatten <+: xs →
    (∀ x ∈ groups.flatten, x.message.reply = none) →
    ∃ p, afterReads .new [] (groups.map wholeRead) = .more p [] ∧
      p.chunkSize = lastSetChunkSize ChunkStreamParser.defaultChunkSize groups.flatten

/-- **Every SetChunkSize is seen and no other message is taken for one**, when the chunk size is
`c`: a SetChunkSize has four bytes and announces a number from 1 to `0xFFFFFF`, or it announces the
size that is in force; and any other message of four bytes holds a number outside that range, or the
size that is in force. -/
def ChunkSizeKept (c : ℕ) (m : Message) : Prop :=
  if m.messageType = .setChunkSize ∧ 4 ≤ m.payload.length then
    (m.payload.length = 4 ∧ 1 ≤ ofBe m.payload ∧ ofBe m.payload ≤ 0xFFFFFF) ∨
      ofBe (m.payload.take 4) % 2 ^ 31 = c
  else
    m.payload.length = 4 → 1 ≤ ofBe m.payload → ofBe m.payload ≤ 0xFFFFFF → ofBe m.payload = c

/-- A message is treated as the server means it exactly when it keeps to that. -/
theorem clientChunkSize_eq_iff (c : ℕ) (x : Compressed) :
    clientChunkSize c x = x.message.setChunkSize.getD c ↔ ChunkSizeKept c x.message := by
  unfold clientChunkSize announcedChunkSize Message.setChunkSize ChunkSizeKept
  by_cases hset : x.message.messageType = .setChunkSize ∧ 4 ≤ x.message.payload.length
  · rw [if_pos hset, if_pos hset, Option.getD_some]
    by_cases hann : x.message.payload.length = 4 ∧ 1 ≤ ofBe x.message.payload ∧
        ofBe x.message.payload ≤ 0xFFFFFF
    · rw [if_pos hann, Option.getD_some, List.take_of_length_le hann.1.le]
      refine iff_of_true ?_ (.inl hann)
      omega
    · rw [if_neg hann, Option.getD_none, or_iff_right hann]
      exact eq_comm
  · rw [if_neg hset, if_neg hset, Option.getD_none]
    by_cases hann : x.message.payload.length = 4 ∧ 1 ≤ ofBe x.message.payload ∧
        ofBe x.message.payload ≤ 0xFFFFFF
    · rw [if_pos hann, Option.getD_some]
      exact ⟨fun h _ _ _ => h, fun h => h hann.1 hann.2.1 hann.2.2⟩
    · rw [if_neg hann, Option.getD_none]
      exact iff_of_true rfl fun h₁ h₂ h₃ => absurd ⟨h₁, h₂, h₃⟩ hann

/-! ### What a message does to the parser -/

/-- The parser between two messages, with the last messages of all chunk streams. -/
def ChunkStreamParser.ReadyAll (p : ChunkStreamParser) (c : ℕ) (before : ℕ → Option Compressed) :
    Prop := ∀ id, p.Ready c id (before id)

theorem ChunkStreamParser.Ready.congr {p p' : ChunkStreamParser} {c c' id : ℕ}
    {before : Option Compressed} (h : p.Ready c id before) (hsize : p'.chunkSize = c')
    (hbuf : p'.currentMessage = []) (hstream : p'.streams id = p.streams id) :
    p'.Ready c' id before := by
  cases before with
  | none => exact ⟨hsize, hbuf, by rw [hstream]; exact h.2.2⟩
  | some y =>
      obtain ⟨hread, header, hfits, hafter⟩ := h
      exact ⟨hread, header, hfits, hsize, hbuf, by rw [hstream]; exact hafter.stream⟩

theorem readyAll_new :
    ChunkStreamParser.new.ReadyAll ChunkStreamParser.defaultChunkSize fun _ => none :=
  fun _ => ⟨rfl, rfl, rfl⟩

/-- **A message in one chunk is parsed in one call**, on any chunk stream. -/
theorem parseChunk_whole {p : ChunkStreamParser} {c : ℕ} {before : ℕ → Option Compressed}
    {x : Compressed} (hready : p.ReadyAll c before)
    (hfollows : x.Follows (before x.message.chunkStreamId)) (h : x.Readable)
    (hfit : x.message.payload.length ≤ c) :
    ∃ p' : ChunkStreamParser,
      p'.ReadyAll c (Function.update before x.message.chunkStreamId (some x)) ∧
      ∀ rest, p.parseChunk (x.whole ++ rest) = (.ok (some x.message.payload), p', rest) := by
  obtain ⟨hsize, hbuf, hreceived⟩ := (hready x.message.chunkStreamId).between
  obtain ⟨header, hfits, hreads⟩ :=
    Compressed.exists_header (hready x.message.chunkStreamId) hfollows h
  have hlen : x.message.payload.length = p.chunkDataSize x.message.chunkStreamId header := by
    rw [ChunkStreamParser.chunkDataSize, hreceived, hsize, hfits.messageLength]
    omega
  obtain ⟨p', hafter, hother, hrun⟩ := ChunkStreamParser.parseChunk_completes
    (ChunkBasicHeader.reads_serialize x.form x.message.csid_ge x.message.csid_le) hreads hlen
    hfits.extended (by simp only; rw [hfits.messageLength, hreceived]; omega)
  rw [hsize] at hafter
  refine ⟨p', fun id => ?_, fun rest => ?_⟩
  · by_cases hid : id = x.message.chunkStreamId
    · subst hid
      rw [Function.update_self]
      exact ⟨h, header, hfits, hafter⟩
    · rw [Function.update_of_ne hid]
      exact (hready id).congr hafter.chunkSize hafter.currentMessage (hother id hid)
  · rw [Compressed.whole, hrun rest, hbuf, List.nil_append, hfits.finish_payload]
    rfl

/-- **A message in one chunk that is no reply**: the loop goes on, with the chunk size that the
client takes it to announce. -/
theorem drainF_step {p : ChunkStreamParser} {c : ℕ} (fuel : ℕ) {before : ℕ → Option Compressed}
    {x : Compressed} (hready : p.ReadyAll c before)
    (hfollows : x.Follows (before x.message.chunkStreamId)) (h : x.Readable)
    (hfit : x.message.payload.length ≤ c) (hreply : x.message.reply = none) :
    ∃ acks, ∃ p' : ChunkStreamParser,
      p'.ReadyAll (clientChunkSize c x)
        (Function.update before x.message.chunkStreamId (some x)) ∧
      ∀ rest, drainF (fuel + 1) p (x.whole ++ rest) =
        (acks ++ (drainF fuel p' rest).1, (drainF fuel p' rest).2) := by
  obtain ⟨p₁, hready₁, hrun⟩ := parseChunk_whole hready hfollows h hfit
  -- an acknowledgement changes only the counters
  have hack : p₁.takeAckIfNeeded.2.ReadyAll c
      (Function.update before x.message.chunkStreamId (some x)) := by
    intro id
    unfold ChunkStreamParser.takeAckIfNeeded
    split
    · exact (hready₁ id).congr (hready₁ id).between.1 (hready₁ id).between.2.1 rfl
    · exact hready₁ id
  cases hsize : announcedChunkSize x.message.payload with
  | some size =>
      refine ⟨p₁.takeAckIfNeeded.1.toList, { p₁.takeAckIfNeeded.2 with chunkSize := size },
        fun id => ?_, fun rest => ?_⟩
      · rw [clientChunkSize, hsize]
        exact (hack id).congr rfl (hack id).between.2.1 rfl
      · rw [drainF, hrun rest]
        simp only [hsize]
  | none =>
      have hvalues : replyValues x.message.payload = none := by
        simpa [Message.reply, hsize] using hreply
      refine ⟨p₁.takeAckIfNeeded.1.toList, p₁.takeAckIfNeeded.2, ?_, fun rest => ?_⟩
      · rw [clientChunkSize, hsize]
        exact hack
      · rw [drainF, hrun rest]
        simp only [hsize, hvalues]

/-! ### Runs -/

/-- The messages keep the two chunk sizes together, from `c` on. -/
def KeptAll : ℕ → List Compressed → Prop
  | _, [] => True
  | c, x :: xs => ChunkSizeKept c x.message ∧ KeptAll (x.message.setChunkSize.getD c) xs

theorem keptAll_append {ys : List Compressed} : ∀ {xs : List Compressed} {c : ℕ},
    KeptAll c (xs ++ ys) ↔ KeptAll c xs ∧ KeptAll (lastSetChunkSize c xs) ys := by
  intro xs
  induction xs with
  | nil =>
      intro c
      exact (and_iff_right trivial).symm
  | cons y xs ih =>
      intro c
      rw [List.cons_append, KeptAll, KeptAll, ih, lastSetChunkSize_cons, and_assoc]

theorem keptAll_of_prefixes {xs : List Compressed} : ∀ {c : ℕ},
    (∀ pre x, pre ++ [x] <+: xs → ChunkSizeKept (lastSetChunkSize c pre) x.message) →
    KeptAll c xs := by
  induction xs with
  | nil =>
      intro c _
      trivial
  | cons x xs ih =>
      intro c h
      refine ⟨h [] x ⟨xs, rfl⟩, ih fun pre y hpre => ?_⟩
      have hkept := h (x :: pre) y (List.cons_prefix_cons.2 ⟨rfl, hpre⟩)
      rwa [lastSetChunkSize_cons] at hkept

theorem Compressed.length_whole_pos (x : Compressed) : 1 ≤ x.whole.length := by
  have hne := ChunkBasicHeader.serialize_ne_nil ⟨x.form, x.message.chunkStreamId⟩
  have hpos := List.length_pos_iff.2 hne
  rw [whole, List.length_append, List.length_append]
  omega

theorem drainF_nil (fuel : ℕ) (p : ChunkStreamParser) : (drainF fuel p []).2 = .more p [] := by
  cases fuel <;> rfl

/-- **Whole messages, none of them a reply, with anything behind them**: the loop arrives at what is
behind with the chunk size that the server has announced. -/
theorem drainF_whole (rest : List UInt8) : ∀ {g : List Compressed} {p : ChunkStreamParser}
    {c fuel : ℕ} {before : ℕ → Option Compressed}, p.ReadyAll c before → ServerStream before c g →
    (∀ x ∈ g, x.Readable) → (∀ x ∈ g, x.message.reply = none) → KeptAll c g →
    (wholeRead g ++ rest).length < fuel →
    ∃ acks, ∃ p' : ChunkStreamParser, ∃ fuel',
      p'.ReadyAll (lastSetChunkSize c g) (lastMessages before g) ∧ rest.length < fuel' ∧
      drainF fuel p (wholeRead g ++ rest) =
        (acks ++ (drainF fuel' p' rest).1, (drainF fuel' p' rest).2) := by
  intro g
  -- both chunk sizes go along: the client's in the parser, the server's in `lastSetChunkSize`
  induction g with
  | nil =>
      intro p c fuel before hready _ _ _ _ hfuel
      exact ⟨[], p, fuel, hready, hfuel, rfl⟩
  | cons x g ih =>
      intro p c fuel before hready hserver hread hreply hkept hfuel
      obtain ⟨hfollows, hfit, hserver'⟩ := hserver
      obtain ⟨hkept, hkept'⟩ := hkept
      have hbytes : wholeRead (x :: g) ++ rest = x.whole ++ (wholeRead g ++ rest) := by
        rw [wholeRead, List.flatMap_cons, List.append_assoc]
        rfl
      rw [hbytes, List.length_append] at hfuel
      have hpos := x.length_whole_pos
      obtain ⟨fuel, rfl⟩ : ∃ k, fuel = k + 1 := ⟨fuel - 1, by omega⟩
      obtain ⟨acks, p₁, hready₁, hstep⟩ := drainF_step fuel hready hfollows
        (hread x List.mem_cons_self) hfit (hreply x List.mem_cons_self)
      rw [(clientChunkSize_eq_iff c x).2 hkept] at hready₁
      obtain ⟨acks', p', fuel', hready', hfuel', hrest⟩ := ih hready₁ hserver'
        (fun y hy => hread y (List.mem_cons_of_mem _ hy))
        (fun y hy => hreply y (List.mem_cons_of_mem _ hy)) hkept' (by omega : _ < fuel)
      refine ⟨acks ++ acks', p', fuel', ?_, hfuel', ?_⟩
      · rw [lastSetChunkSize_cons]
        exact hready'
      · rw [hbytes, hstep, hrest, List.append_assoc]

/-- **The same for a sequence of reads.** -/
theorem afterReads_whole : ∀ {groups : List (List Compressed)} {p : ChunkStreamParser} {c : ℕ}
    {before : ℕ → Option Compressed}, p.ReadyAll c before →
    ServerStream before c groups.flatten → (∀ x ∈ groups.flatten, x.Readable) →
    (∀ x ∈ groups.flatten, x.message.reply = none) → KeptAll c groups.flatten →
    ∃ p', afterReads p [] (groups.map wholeRead) = .more p' [] ∧
      p'.chunkSize = lastSetChunkSize c groups.flatten := by
  intro groups
  induction groups with
  | nil =>
      intro p c before hready _ _ _ _
      exact ⟨p, rfl, (hready 0).between.1⟩
  | cons g groups ih =>
      intro p c before hready hserver hread hreply hkept
      rw [List.flatten_cons] at hserver hread hreply hkept ⊢
      obtain ⟨hserver, hserver'⟩ := serverStream_append.1 hserver
      obtain ⟨hkept, hkept'⟩ := keptAll_append.1 hkept
      obtain ⟨acks, p₁, fuel, hready₁, -, hdrain⟩ := drainF_whole [] hready hserver
        (fun x hx => hread x (List.mem_append_left _ hx))
        (fun x hx => hreply x (List.mem_append_left _ hx)) hkept (Nat.lt_succ_self _)
      obtain ⟨p', hrest, hsize⟩ := ih hready₁ hserver'
        (fun x hx => hread x (List.mem_append_right _ hx))
        (fun x hx => hreply x (List.mem_append_right _ hx)) hkept'
      refine ⟨p', ?_, ?_⟩
      · have hmore : (drain p ([] ++ wholeRead g)).2 = .more p₁ [] := by
          rw [List.append_nil] at hdrain
          rw [List.nil_append, drain, hdrain]
          exact drainF_nil fuel p₁
        rw [List.map_cons, afterReads, hmore]
        exact hrest
      · rw [hsize, lastSetChunkSize_append]

/-! ### When the chunk size is right -/

/-- A message that the client misunderstands is seen at once. -/
theorem chunkSizeKept_of_follows {xs pre : List Compressed} {x : Compressed}
    (hserver : ServerStream (fun _ => none) ChunkStreamParser.defaultChunkSize xs)
    (hread : ∀ y ∈ xs, y.Readable) (h : ChunkSizeFollows xs) (hpre : pre ++ [x] <+: xs)
    (hreply : ∀ y ∈ pre ++ [x], y.message.reply = none)
    (hkept : KeptAll ChunkStreamParser.defaultChunkSize pre) :
    ChunkSizeKept (lastSetChunkSize ChunkStreamParser.defaultChunkSize pre) x.message := by
  obtain ⟨rest, rfl⟩ := hpre
  obtain ⟨hserver, -⟩ := serverStream_append.1 hserver
  obtain ⟨hserver, hfollows, hfit, -⟩ := serverStream_append.1 hserver
  have hread' : ∀ y ∈ pre ++ [x], y.Readable := fun y hy => hread y (List.mem_append_left _ hy)
  -- the parser when the message comes, and after it
  obtain ⟨acks, p, fuel, hready, hfuel, hdrain⟩ := drainF_whole x.whole readyAll_new
    hserver (fun y hy => hread' y (List.mem_append_left _ hy))
    (fun y hy => hreply y (List.mem_append_left _ hy)) hkept (Nat.lt_succ_self _)
  obtain ⟨fuel, rfl⟩ : ∃ k, fuel = k + 1 := ⟨fuel - 1, by omega⟩
  obtain ⟨acks', p', hready', hstep⟩ := drainF_step fuel hready hfollows
    (hread' x (List.mem_append_right _ List.mem_cons_self)) hfit
    (hreply x (List.mem_append_right _ List.mem_cons_self))
  have hone := hstep []
  rw [List.append_nil] at hone
  have hmore : afterReads .new [] [wholeRead (pre ++ [x])] = .more p' [] := by
    have hbytes : wholeRead (pre ++ [x]) = wholeRead pre ++ x.whole := by
      rw [wholeRead, List.flatMap_append, List.flatMap_singleton]
      rfl
    rw [afterReads, List.nil_append, hbytes, drain, hdrain, hone]
    simp only [drainF_nil]
    rfl
  obtain ⟨q, hq, hsize⟩ := h [pre ++ [x]] (by simp) (by simpa using hreply)
  rw [List.map_singleton, hmore] at hq
  obtain ⟨rfl, -⟩ := Drained.more.inj hq
  rw [(hready' 0).between.1, List.flatten_singleton, lastSetChunkSize_append] at hsize
  rw [← clientChunkSize_eq_iff, hsize, lastSetChunkSize_cons]
  rfl

/-- **Only a SetChunkSize changes the chunk size, and every SetChunkSize does**, exactly when each
message that a call reads before its reply is a SetChunkSize that it recognises or is not taken for
one; the messages being any that a server may send, each in one chunk with a header that the parser
reads. -/
theorem chunkSizeFollows_iff (xs : List Compressed)
    (hserver : ServerStream (fun _ => none) ChunkStreamParser.defaultChunkSize xs)
    (hread : ∀ x ∈ xs, x.Readable) :
    ChunkSizeFollows xs ↔
      ∀ pre x, pre ++ [x] <+: xs → (∀ y ∈ pre ++ [x], y.message.reply = none) →
        ChunkSizeKept (lastSetChunkSize ChunkStreamParser.defaultChunkSize pre) x.message := by
  constructor
  · intro h
    -- the messages before one have to be understood for the parser to get to it
    have hkept : ∀ g, g <+: xs → (∀ y ∈ g, y.message.reply = none) →
        KeptAll ChunkStreamParser.defaultChunkSize g := by
      intro g
      induction g using List.reverseRecOn with
      | nil =>
          intro _ _
          trivial
      | append_singleton pre x ih =>
          intro hpre hreply
          have hbefore := ih ((List.prefix_append _ _).trans hpre)
            fun y hy => hreply y (List.mem_append_left _ hy)
          exact keptAll_append.2 ⟨hbefore,
            chunkSizeKept_of_follows hserver hread h hpre hreply hbefore, trivial⟩
    intro pre x hpre hreply
    exact (keptAll_append.1 (hkept _ hpre hreply)).2.1
  · intro h groups hpre hreply
    have hkept : KeptAll ChunkStreamParser.defaultChunkSize groups.flatten := by
      refine keptAll_of_prefixes fun pre x hx => h pre x (hx.trans hpre) ?_
      intro y hy
      exact hreply y (hx.subset hy)
    obtain ⟨rest, rfl⟩ := hpre
    exact afterReads_whole readyAll_new (serverStream_append.1 hserver).1
      (fun x hx => hread x (List.mem_append_left _ hx)) hreply hkept

theorem zero_lt_word : 0 < 2 ^ 32 := by decide

/-- A control message of the server, on chunk stream 2. -/
def controlMessage (messageType : MessageType) (payload : List UInt8)
    (h : payload.length ≤ 0xFFFFFF := by decide) : Compressed where
  form := .type0
  message := Message.small messageType 0 0 0 payload h
  field := 0
  field_lt := zero_lt_word

/-- A chunk size of 4096, a bandwidth limit, and the announcement of stream 1. -/
theorem chunkSizeFollows_4096 :
    ChunkSizeFollows [controlMessage .setChunkSize [0, 0, 16, 0],
      controlMessage .setPeerBandwidth [0, 38, 37, 160, 2],
      controlMessage .userControlMessage [0, 0, 0, 0, 0, 1]] := by
  have hserver : ServerStream (fun _ => none) 128 [controlMessage .setChunkSize [0, 0, 16, 0],
      controlMessage .setPeerBandwidth [0, 38, 37, 160, 2],
      controlMessage .userControlMessage [0, 0, 0, 0, 0, 1]] :=
    ⟨⟨rfl, rfl⟩, by decide, rfl, by decide, rfl, by decide, trivial⟩
  have hkept : KeptAll 128 [controlMessage .setChunkSize [0, 0, 16, 0],
      controlMessage .setPeerBandwidth [0, 38, 37, 160, 2],
      controlMessage .userControlMessage [0, 0, 0, 0, 0, 1]] := by
    refine ⟨.inl ⟨rfl, by decide, by decide⟩, fun h => ?_, fun h => ?_, trivial⟩
    · cases h
    · cases h
  refine (chunkSizeFollows_iff _ hserver ?_).2 fun pre x hpre _ => ?_
  · intro x hx
    simp only [List.mem_cons, List.not_mem_nil, or_false] at hx
    rcases hx with rfl | rfl | rfl
    · exact ⟨by decide, by decide, by decide⟩
    · exact ⟨by decide, by decide, by decide⟩
    · exact ⟨by decide, by decide, by decide⟩
  · obtain ⟨rest, hrest⟩ := hpre
    rw [← hrest] at hkept
    exact (keptAll_append.1 (keptAll_append.1 hkept).1).2.1

/-- **A window acknowledgement size of 2500000 bytes is taken for a chunk size.** -/
theorem not_chunkSizeFollows_window :
    ServerStream (fun _ => none) 128 [controlMessage .windowAckSize [0, 38, 37, 160]] ∧
      ¬ ChunkSizeFollows [controlMessage .windowAckSize [0, 38, 37, 160]] := by
  have hserver : ServerStream (fun _ => none) 128 [controlMessage .windowAckSize [0, 38, 37, 160]] :=
    ⟨⟨rfl, rfl⟩, by decide, trivial⟩
  refine ⟨hserver, fun h => ?_⟩
  have hkept : ChunkSizeKept (lastSetChunkSize ChunkStreamParser.defaultChunkSize [])
      (controlMessage .windowAckSize [0, 38, 37, 160]).message :=
    chunkSizeKept_of_follows hserver ?_ h List.prefix_rfl ?_ trivial
  · rw [ChunkSizeKept, if_neg (by decide)] at hkept
    exact absurd (hkept rfl (by decide) (by decide)) (by decide)
  · intro x hx
    rw [List.mem_singleton.1 hx]
    exact ⟨by decide, by decide, by decide⟩
  · intro x hx
    rw [List.mem_singleton.1 hx]
    rfl

end Rtmp

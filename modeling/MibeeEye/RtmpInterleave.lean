/-
**Interleaved chunk streams.**

RTMP lets the chunks of messages on different chunk streams take turns; that is what chunking is
for.  `ChunkStreamParser` keeps a header and a byte count for every chunk stream, but collects the
data of all of them in one buffer.  Whenever a chunk of one message arrives while another message
is in flight, their bytes therefore end up in one payload.

Main definitions:

* `Rtmp.IsInterleaving` — a sequence of chunks in which every message's chunks occur in order;
* `Rtmp.Contiguous` — one in which they also come together.

Main results:

* `Rtmp.IsInterleaving.schedule` — every interleaving is a schedule in the sense of
  `MibeeEye/RtmpChunkWriter.lean`;
* `Rtmp.interleaving_iff` — **the parser delivers every message at its last chunk exactly when no
  two messages are ever in flight together** (and none is a WindowAckSize it refuses).
-/

import MibeeEye.RtmpChunkAgreement
import Mathlib.Data.List.Nodup
import Mathlib.Tactic.FinCases

set_option relaxedAutoImplicit false
set_option autoImplicit false

namespace Rtmp

open Wire

/-- The chunks of the stream of `m`, among those of a sequence. -/
def chunksOn (m : Message) (s : List (Message × Piece)) : List (Message × Piece) :=
  s.filter fun x => x.1.chunkStreamId = m.chunkStreamId

/-- **An interleaving** of messages: a sequence of their chunks in which the chunks of each
message are all there, in their own order. -/
def IsInterleaving (c : ℕ) (ms : List Message) (s : List (Message × Piece)) : Prop :=
  (∀ x ∈ s, x.1 ∈ ms) ∧ ∀ m ∈ ms, chunksOn m s = m.owned c

/-- The messages come one after another, in some order. -/
def Contiguous (c : ℕ) (ms : List Message) (s : List (Message × Piece)) : Prop :=
  ∃ order : List Message, order.Perm ms ∧ s = order.flatMap (Message.owned c)

/-- The result the parser is to return at each chunk. -/
def expectedResults (s : List (Message × Piece)) : List (Option (List UInt8)) :=
  s.map fun x => x.1.expected x.2

/-! ### Interleavings are schedules -/

theorem chunksOn_cons_self {m : Message} {q : Piece} {s : List (Message × Piece)} :
    chunksOn m ((m, q) :: s) = (m, q) :: chunksOn m s := by
  simp [chunksOn]

theorem chunksOn_cons_of_ne {m : Message} {x : Message × Piece} {s : List (Message × Piece)}
    (h : x.1.chunkStreamId ≠ m.chunkStreamId) : chunksOn m (x :: s) = chunksOn m s := by
  simp [chunksOn, h]

/-- What is still to come of a message, given where its chunk stream stands. -/
def Remaining (c : ℕ) (m : Message) (rest : List (Message × Piece)) : Progress → Prop
  | .idle => rest = m.owned c ∨ rest = []
  | .busy m' ps => m' = m ∧ rest = ps.map (fun q => (m, q)) ∧ ∃ ds, ps = m.contPieces ds

/-- After a chunk of the message, what remains is what its new progress says. -/
theorem remaining_after {c : ℕ} {m : Message} {q : Piece} {ds : List (List UInt8)}
    {rest : List (Message × Piece)} (hq : q.last = ds.isEmpty)
    (hrest : rest = (m.contPieces ds).map fun q => (m, q)) :
    Remaining c m rest (.after m q (m.contPieces ds)) := by
  cases ds with
  | nil =>
      rw [Progress.after_last hq]
      exact Or.inr hrest
  | cons d ds =>
      rw [Progress.after_more hq]
      exact ⟨rfl, hrest, _, rfl⟩

/-- **Every interleaving of messages on distinct chunk streams is a schedule.** -/
theorem schedule_of_remaining {c : ℕ} (hc : 1 ≤ c) {ms : List Message}
    (hdistinct : (ms.map Message.chunkStreamId).Nodup) :
    ∀ (s : List (Message × Piece)) (T : ℕ → Progress), (∀ x ∈ s, x.1 ∈ ms) →
      (∀ m ∈ ms, Remaining c m (chunksOn m s) (T m.chunkStreamId)) →
      ∃ T', Schedule c T s T' := by
  intro s
  induction s with
  | nil => intro T _ _; exact ⟨T, Schedule.nil T⟩
  | cons x s ih =>
      obtain ⟨m, q⟩ := x
      intro T hmem hrem
      have hm : m ∈ ms := hmem (m, q) (by simp)
      -- the other messages are where they were
      have hothers : ∀ (T₁ : Progress) (m' : Message), m' ∈ ms → m' ≠ m →
          Remaining c m' (chunksOn m' s)
            (Function.update T m.chunkStreamId T₁ m'.chunkStreamId) := by
        intro T₁ m' hm' hne
        have hid : m'.chunkStreamId ≠ m.chunkStreamId :=
          fun h => hne (List.inj_on_of_nodup_map hdistinct hm' hm h)
        rw [Function.update_of_ne hid]
        have := hrem m' hm'
        rwa [chunksOn_cons_of_ne (fun h => hid h.symm)] at this
      have hnext : ∀ ds : List (List UInt8), q.last = ds.isEmpty →
          chunksOn m s = (m.contPieces ds).map (fun q => (m, q)) →
          ∃ T', Schedule c
            (Function.update T m.chunkStreamId (.after m q (m.contPieces ds))) s T' := by
        intro ds hlast hrest
        refine ih _ (fun y hy => hmem y (by simp [hy])) ?_
        intro m' hm'
        by_cases hne : m' = m
        · subst hne
          rw [Function.update_self]
          exact remaining_after hlast hrest
        · exact hothers _ m' hm' hne
      have hself := hrem m hm
      rw [chunksOn_cons_self] at hself
      cases hT : T m.chunkStreamId with
      | idle =>
          rw [hT] at hself
          rcases hself with hself | hself
          · -- the first chunk of `m`
            unfold Message.owned Message.pieces at hself
            cases hcut : cut c m.payload with
            | nil => exact absurd hcut (cut_ne_nil hc _)
            | cons d ds =>
                rw [hcut, List.map_cons] at hself
                obtain ⟨hfirst, hrest⟩ := List.cons.inj hself
                have hq : q = ⟨m.firstHead ++ d, d, ds.isEmpty⟩ := (Prod.mk.inj hfirst).2
                obtain ⟨T', hT'⟩ := hnext ds (by rw [hq]) hrest
                refine ⟨T', Schedule.start hT ?_ hT'⟩
                simp only [Message.pieces, hcut, hq]
          · simp at hself
      | busy m' ps =>
          rw [hT] at hself
          obtain ⟨rfl, hself, ds, rfl⟩ := hself
          cases ds with
          | nil => simp [Message.contPieces] at hself
          | cons d ds =>
              rw [Message.contPieces, List.map_cons] at hself
              obtain ⟨hfirst, hrest⟩ := List.cons.inj hself
              have hq : q = ⟨m'.contHead ++ d, d, ds.isEmpty⟩ := (Prod.mk.inj hfirst).2
              obtain ⟨T', hT'⟩ := hnext ds (by rw [hq]) hrest
              have hbusy : T m'.chunkStreamId = .busy m' (q :: m'.contPieces ds) := by
                rw [hT, hq, Message.contPieces]
              exact ⟨T', Schedule.cont hbusy hT'⟩

/-- Every interleaving of messages on distinct chunk streams is a schedule. -/
theorem IsInterleaving.schedule {c : ℕ} (hc : 1 ≤ c) {ms : List Message}
    (hdistinct : (ms.map Message.chunkStreamId).Nodup) {s : List (Message × Piece)}
    (h : IsInterleaving c ms s) : ∃ T', Schedule c (fun _ => .idle) s T' :=
  schedule_of_remaining hc hdistinct s _ h.1 fun m hm => Or.inl (h.2 m hm)

/-! ### The first message to complete -/

theorem chunksOn_append (m : Message) (s t : List (Message × Piece)) :
    chunksOn m (s ++ t) = chunksOn m s ++ chunksOn m t :=
  List.filter_append ..

theorem chunksOn_owned_of_ne {c : ℕ} {m m' : Message}
    (h : m.chunkStreamId ≠ m'.chunkStreamId) : chunksOn m' (m.owned c) = [] := by
  refine List.filter_eq_nil_iff.2 ?_
  intro x hx
  obtain ⟨q, -, rfl⟩ := List.mem_map.1 hx
  simpa using h

/-- The chunk of an interleaving is a chunk of its message. -/
theorem IsInterleaving.mem_pieces {c : ℕ} {ms : List Message} {s : List (Message × Piece)}
    (h : IsInterleaving c ms s) {x : Message × Piece} (hx : x ∈ s) : x.2 ∈ x.1.pieces c := by
  have hon : x ∈ chunksOn x.1 s := List.mem_filter.2 ⟨hx, by simp⟩
  rw [h.2 x.1 (h.1 x hx)] at hon
  obtain ⟨q, hq, hqx⟩ := List.mem_map.1 hon
  rw [← hqx]
  exact hq

/-- A chunk that is not the last of its message is full. -/
theorem Message.length_data_of_mem {m : Message} {c : ℕ} (hc : 1 ≤ c) {q : Piece}
    (hq : q ∈ m.pieces c) (hlast : q.last = false) : q.data.length = c := by
  obtain ⟨front, final, hsplit, hfront, hfinal, -⟩ := m.pieces_split hc
  rw [hsplit] at hq
  rcases List.mem_append.1 hq with hq | hq
  · exact (hfront q hq).2
  · rw [List.mem_singleton.1 hq, hfinal] at hlast
    exact absurd hlast (by simp)

/-- The only marked entry of a list is its end. -/
theorem eq_of_append_marked {α : Type} {P : α → Prop} {front pre post : List α} {final x : α}
    (h : pre ++ x :: post = front ++ [final]) (hfront : ∀ y ∈ front, ¬ P y) (hx : P x) :
    pre = front ∧ x = final ∧ post = [] := by
  rcases List.eq_nil_or_concat post with rfl | ⟨post', z, rfl⟩
  · obtain ⟨hpre, hlast⟩ := List.append_inj' h rfl
    exact ⟨hpre, List.head_eq_of_cons_eq hlast, rfl⟩
  · rw [List.concat_eq_append, ← List.cons_append, ← List.append_assoc] at h
    obtain ⟨hpre, -⟩ := List.append_inj' h rfl
    exact absurd hx (hfront x (hpre ▸ by simp))

/-- The data of full chunks. -/
theorem length_flatMap_data {c : ℕ} {s : List (Message × Piece)}
    (h : ∀ y ∈ s, y.2.data.length = c) : (s.flatMap fun y => y.2.data).length = c * s.length := by
  induction s with
  | nil => simp
  | cons y s ih =>
      rw [List.flatMap_cons, List.length_append, h y (by simp), ih fun z hz => h z (by simp [hz]),
        List.length_cons, Nat.mul_succ, Nat.add_comm]

/-- **The first message to complete**, if it is delivered with its own payload, had its chunks
together: every chunk before its last one is its own. -/
theorem IsInterleaving.first_complete {c : ℕ} (hc : 1 ≤ c) {ms : List Message}
    {pre post : List (Message × Piece)} {x : Message × Piece}
    (h : IsInterleaving c ms (pre ++ x :: post)) (hpre : ∀ y ∈ pre, y.2.last = false)
    (hx : x.2.last = true)
    (hpayload : (pre.flatMap fun y => y.2.data) ++ x.2.data = x.1.payload) :
    pre ++ [x] = x.1.owned c ∧ chunksOn x.1 post = [] := by
  obtain ⟨front, final, hsplit, hfront, hfinal, hdata⟩ := x.1.pieces_split hc
  have hon := h.2 x.1 (h.1 x (by simp))
  have hcons : chunksOn x.1 (x :: post) = x :: chunksOn x.1 post := by
    simp [chunksOn]
  rw [chunksOn_append, hcons, Message.owned, hsplit, List.map_append, List.map_singleton] at hon
  obtain ⟨hown, hxfinal, hpost⟩ := eq_of_append_marked (P := fun y => y.2.last = true) hon
    (by
      intro y hy
      obtain ⟨q, hq, rfl⟩ := List.mem_map.1 hy
      simp [(hfront q hq).1]) hx
  -- the buffer holds `c` bytes for every chunk before, and for every chunk of `x.1` before
  have hlen : c * pre.length = c * front.length := by
    have hall : ∀ y ∈ pre, y.2.data.length = c := fun y hy =>
      Message.length_data_of_mem hc (h.mem_pieces (by simp [hy])) (hpre y hy)
    have hmine : ∀ y ∈ front.map (fun q => (x.1, q)), y.2.data.length = c := by
      intro y hy
      obtain ⟨q, hq, rfl⟩ := List.mem_map.1 hy
      exact (hfront q hq).2
    have hmineLen := length_flatMap_data hmine
    rw [List.flatMap_map, List.length_map] at hmineLen
    have htotal := congrArg List.length (hpayload.trans hdata.symm)
    have hxdata : x.2.data = final.data := by rw [hxfinal]
    rw [hxdata, List.length_append, List.length_append, length_flatMap_data hall] at htotal
    have : (front.flatMap Piece.data).length = c * front.length := hmineLen
    omega
  have hcount : (chunksOn x.1 pre).length = pre.length := by
    rw [hown, List.length_map]
    exact (Nat.eq_of_mul_eq_mul_left hc hlen).symm
  have hpre_own : chunksOn x.1 pre = pre :=
    List.filter_eq_self.2 (List.length_filter_eq_length_iff.1 hcount)
  refine ⟨?_, hpost⟩
  rw [← hpre_own, hown, hxfinal, Message.owned, hsplit, List.map_append]
  rfl

/-- What is left of an interleaving when the message in front is taken away. -/
theorem IsInterleaving.tail {c : ℕ} {l₁ l₂ : List Message} {m : Message}
    {post : List (Message × Piece)} (hdistinct : ((l₁ ++ m :: l₂).map Message.chunkStreamId).Nodup)
    (h : IsInterleaving c (l₁ ++ m :: l₂) (m.owned c ++ post)) (hpost : chunksOn m post = []) :
    IsInterleaving c (l₁ ++ l₂) post := by
  constructor
  · intro y hy
    have hmem := h.1 y (by simp [hy])
    have hne : y.1 ≠ m := by
      intro hym
      have : y ∈ chunksOn m post := List.mem_filter.2 ⟨hy, by simp [hym]⟩
      rw [hpost] at this
      exact absurd this (by simp)
    rcases List.mem_append.1 hmem with hmem | hmem
    · exact List.mem_append_left _ hmem
    · rcases List.mem_cons.1 hmem with hmem | hmem
      · exact absurd hmem hne
      · exact List.mem_append_right _ hmem
  · intro m' hm'
    have hid : m.chunkStreamId ≠ m'.chunkStreamId := by
      intro hid
      rw [List.map_append, List.map_cons, List.nodup_middle, ← List.map_append] at hdistinct
      exact (List.nodup_cons.1 hdistinct).1 (hid ▸ List.mem_map_of_mem hm')
    have hon := h.2 m' (by
      rcases List.mem_append.1 hm' with hm' | hm'
      · exact List.mem_append_left _ hm'
      · exact List.mem_append_right _ (List.mem_cons_of_mem _ hm'))
    rwa [chunksOn_append, chunksOn_owned_of_ne hid, List.nil_append] at hon

/-- An interleaving of at least one message has a chunk that completes one. -/
theorem IsInterleaving.exists_last {c : ℕ} (hc : 1 ≤ c) {ms : List Message}
    {s : List (Message × Piece)} (h : IsInterleaving c ms s) (hne : ms ≠ []) :
    ∃ pre x post, s = pre ++ x :: post ∧ (∀ y ∈ pre, y.2.last = false) ∧ x.2.last = true := by
  obtain ⟨m, hm⟩ := List.exists_mem_of_ne_nil ms hne
  obtain ⟨front, final, hsplit, -, hfinal, -⟩ := m.pieces_split hc
  have hmem : (m, final) ∈ s := by
    have : (m, final) ∈ chunksOn m s := by
      rw [h.2 m hm, Message.owned, hsplit]
      simp
    exact (List.mem_filter.1 this).1
  have hsome : (s.find? fun y => y.2.last).isSome := by
    rw [List.find?_isSome]
    exact ⟨(m, final), hmem, hfinal⟩
  obtain ⟨x, hx⟩ := Option.isSome_iff_exists.1 hsome
  obtain ⟨hlast, pre, post, hs, hpre⟩ := List.find?_eq_some_iff_append.1 hx
  exact ⟨pre, x, post, hs, fun y hy => by simpa using hpre y hy, hlast⟩

/-! ### Exactly the contiguous interleavings -/

theorem expectedResults_owned {c : ℕ} (ms : List Message) :
    expectedResults (ms.flatMap (Message.owned c)) =
      ms.flatMap fun m => (m.pieces c).map m.expected := by
  rw [expectedResults, List.map_flatMap]
  refine List.flatMap_congr ?_
  intro m _
  rw [Message.owned, List.map_map]
  rfl

/-- The single-buffer demultiplexer delivers every message at its last chunk only if the messages
come one after another. -/
theorem contiguous_of_sharedRun {c : ℕ} (hc : 1 ≤ c) : ∀ (n : ℕ) {ms : List Message},
    ms.length = n → (ms.map Message.chunkStreamId).Nodup → ∀ {s : List (Message × Piece)},
    IsInterleaving c ms s → (sharedRun [] s).map Prod.fst = .ok (expectedResults s) →
    Contiguous c ms s ∧ ∀ m ∈ ms, m.Deliverable := by
  intro n
  induction n with
  | zero =>
      intro ms hlen _ s h _
      obtain rfl := List.length_eq_zero_iff.1 hlen
      have hs : s = [] := List.eq_nil_iff_forall_not_mem.2 fun x hx => by simpa using h.1 x hx
      exact ⟨⟨[], List.Perm.refl _, hs⟩, by simp⟩
  | succ n ih =>
      intro ms hlen hdistinct s h hrun
      obtain ⟨pre, x, post, rfl, hpre, hx⟩ := h.exists_last hc (by
        rintro rfl
        simp at hlen)
      rw [sharedRun_append_last hpre hx, List.nil_append] at hrun
      cases hdel : deliver x.1 ((pre.flatMap fun y => y.2.data) ++ x.2.data) with
      | error e =>
          rw [hdel] at hrun
          simp [Except.map] at hrun
      | ok r =>
          have hr := deliver_eq_of_ok hdel
          rw [hdel] at hrun
          cases hpostrun : sharedRun [] post with
          | error e =>
              rw [hpostrun] at hrun
              simp [Except.map] at hrun
          | ok res =>
              simp only [hpostrun, Except.map, prepend, expectedResults, List.map_append,
                List.map_cons, Except.ok.injEq, List.append_assoc, List.singleton_append] at hrun
              obtain ⟨-, hrun⟩ := List.append_inj hrun (by simp)
              obtain ⟨hrx, hrun⟩ := List.cons.inj hrun
              rw [hr, Message.expected, if_pos hx, Option.some.injEq] at hrx
              obtain ⟨hown, hpost⟩ := h.first_complete hc hpre hx hrx
              obtain ⟨l₁, l₂, rfl⟩ := List.append_of_mem (h.1 x (by simp))
              have hs : pre ++ x :: post = x.1.owned c ++ post := by
                rw [← hown, List.append_assoc, List.singleton_append]
              rw [hs] at h ⊢
              have hsub : (l₁ ++ l₂).length = n := by
                simp only [List.length_append, List.length_cons] at hlen ⊢
                omega
              have hdistinct' : ((l₁ ++ l₂).map Message.chunkStreamId).Nodup := by
                rw [List.map_append, List.map_cons, List.nodup_middle] at hdistinct
                rw [List.map_append]
                exact (List.nodup_cons.1 hdistinct).2
              obtain ⟨⟨order, hperm, hcontig⟩, hdeliver⟩ := ih hsub hdistinct'
                (h.tail hdistinct hpost) (by rw [hpostrun]; simp [Except.map, hrun, expectedResults])
              refine ⟨⟨x.1 :: order, ?_, ?_⟩, ?_⟩
              · exact (hperm.cons _).trans List.perm_middle.symm
              · rw [List.flatMap_cons, hcontig]
              · intro m hm
                rcases List.mem_cons.1 (List.perm_middle.mem_iff.1 hm) with rfl | hm
                · rw [hrx, hr, hrx] at hdel
                  exact deliver_payload_iff.1 hdel
                · exact hdeliver m hm

/-- On an interleaving of messages with small timestamps the parser is the single-buffer
demultiplexer. -/
theorem parseAll_interleaving {c : ℕ} (hc : 1 ≤ c) {ms : List Message}
    (hdistinct : (ms.map Message.chunkStreamId).Nodup) (hts : ∀ m ∈ ms, m.timestamp < 0xFFFFFF)
    {s : List (Message × Piece)} (hs : IsInterleaving c ms s) :
    (freshParser c).parseAll (s.flatMap fun x => x.2.wire) = (sharedRun [] s).map Prod.fst := by
  obtain ⟨T', hsched⟩ := hs.schedule hc hdistinct
  have hparse := parseAll_schedule hc hsched (p := freshParser c) rfl (fun _ => rfl)
    (fun x hx => hts x.1 (hs.1 x hx)) []
  rw [List.append_nil] at hparse
  have hbuf : (freshParser c).currentMessage = [] := rfl
  rw [hbuf] at hparse
  cases hrun : sharedRun [] s with
  | error e =>
      simp only [hrun] at hparse
      rw [hparse]
      rfl
  | ok x =>
      obtain ⟨rs, buf⟩ := x
      simp only [hrun] at hparse
      obtain ⟨p', -, -, -, hall⟩ := hparse
      rw [hall, ChunkStreamParser.parseAll_nil]
      simp [Except.map]

/-- **Exactly when interleaved messages do not mix**: the parser returns every message at its last
chunk, with its own payload, if and only if no message is in flight while another one is (and no
WindowAckSize message is shorter than its window). -/
theorem interleaving_iff {c : ℕ} (hc : 1 ≤ c) {ms : List Message}
    (hdistinct : (ms.map Message.chunkStreamId).Nodup) (hts : ∀ m ∈ ms, m.timestamp < 0xFFFFFF)
    {s : List (Message × Piece)} (hs : IsInterleaving c ms s) :
    (freshParser c).parseAll (s.flatMap fun x => x.2.wire) = .ok (expectedResults s) ↔
      Contiguous c ms s ∧
        ∀ m ∈ ms, m.messageType = .windowAckSize → 4 ≤ m.payload.length := by
  rw [parseAll_interleaving hc hdistinct hts hs]
  constructor
  · intro hrun
    exact contiguous_of_sharedRun hc ms.length rfl hdistinct hs hrun
  · rintro ⟨⟨order, hperm, rfl⟩, hdeliver⟩
    rw [sharedRun_flatMap_owned hc fun m hm => hdeliver m (hperm.mem_iff.1 hm),
      expectedResults_owned]
    rfl

/-- An audio message of two chunks, at chunk size one. -/
def audioMessage : Message := .small .audio 2 1 0 [0x0A, 0x0B]

/-- A video message of two chunks, at chunk size one. -/
def videoMessage : Message := .small .video 3 1 0 [0x01, 0x02]

/-- The chunks of the two messages, taking turns. -/
def alternating : List (Message × Piece) :=
  ((audioMessage.owned 1).zip (videoMessage.owned 1)).flatMap fun x => [x.1, x.2]

theorem alternating_isInterleaving : IsInterleaving 1 [audioMessage, videoMessage] alternating := by
  constructor
  · intro x hx
    fin_cases hx <;> simp
  · intro m hm
    fin_cases hm <;> rfl

/-- Sent one after the other, the two messages arrive. -/
theorem interleaving_iff_in_sequence :
    (freshParser 1).parseAll
        (([audioMessage, videoMessage].flatMap (Message.owned 1)).flatMap fun x => x.2.wire)
      = .ok [none, some [0x0A, 0x0B], none, some [0x01, 0x02]] := by
  have hs : IsInterleaving 1 [audioMessage, videoMessage]
      ([audioMessage, videoMessage].flatMap (Message.owned 1)) := by
    constructor
    · intro x hx
      fin_cases hx <;> simp
    · intro m hm
      fin_cases hm <;> rfl
  exact (interleaving_iff le_rfl (by decide) (by decide) hs).2
    ⟨⟨_, List.Perm.refl _, rfl⟩, by decide⟩

/-- Sent in turns, the audio message arrives with a byte of the video message in it. -/
theorem alternating_mixes :
    IsInterleaving 1 [audioMessage, videoMessage] alternating ∧
      (freshParser 1).parseAll (alternating.flatMap fun x => x.2.wire)
        = .ok [none, none, some [0x0A, 0x01, 0x0B], some [0x02]] ∧
      (freshParser 1).parseAll (alternating.flatMap fun x => x.2.wire)
        ≠ .ok (expectedResults alternating) := by
  have hrun : (freshParser 1).parseAll (alternating.flatMap fun x => x.2.wire)
      = .ok [none, none, some [0x0A, 0x01, 0x0B], some [0x02]] := by rfl
  refine ⟨alternating_isInterleaving, hrun, ?_⟩
  rw [hrun]
  intro h
  have hexp : expectedResults alternating
      = [none, none, some [0x0A, 0x0B], some [0x01, 0x02]] := by rfl
  rw [hexp] at h
  simp at h

end Rtmp

/-
**Talkback is played.**

What the platform says comes in packets of codes, which are decoded and written to a ring of two seconds
(`crates/web/src/gb28181_talkback.rs`).  The sound card asks for samples whenever it needs some, and plays
silence when there are none.  Packets and requests come in any order.

Main definitions:

* `Talkback.PcmRing` — the ring;
* `Talkback.Event`, `Talkback.step` — packets, and requests of the sound card.

Main results:

* `Talkback.writeRing_eq` — the ring keeps the newest samples;
* `Talkback.playback` — **samples are played in the order they were said, none twice, no later than the ring
  is long, and each unless the ring overflows**.
-/

import MibeeEye.VoiceCompanding
import MibeeEye.WindowBuffers

set_option relaxedAutoImplicit false
set_option autoImplicit false

namespace Talkback

open Audio Transducer

/-! ### The ring -/

/-- `PcmRing`. -/
structure PcmRing where
  buf : List Int16
  cap : ℕ
  deriving DecidableEq, Repr

/-- `PcmRing::new`. -/
def PcmRing.new (cap : ℕ) : PcmRing := { buf := [], cap := cap }

/-- The loop that pops from the front. -/
@[grind =] def popFront (cap : ℕ) : List Int16 → List Int16
  | [] => []
  | sample :: buf => if cap < (sample :: buf).length then popFront cap buf else sample :: buf

/-- `PcmRing::write`. -/
def PcmRing.write (ring : PcmRing) (samples : List Int16) : PcmRing :=
  { ring with buf := popFront ring.cap (ring.buf ++ samples) }

/-- `PcmRing::drain_into`: the ring, what is played, and how much of it was in the ring. -/
def PcmRing.drainInto (ring : PcmRing) (len : ℕ) : PcmRing × List Int16 × ℕ :=
  let n := min len ring.buf.length
  ({ ring with buf := ring.buf.drop n }, ring.buf.take n ++ List.replicate (len - n) 0, n)

/-- `expand_i16`. -/
def expandI16 (mono : List Int16) (channels : ℕ) : List Int16 := mono.flatMap (List.replicate channels)

/-- The loop keeps the newest samples. -/
theorem popFront_eq (cap : ℕ) (buf : List Int16) : popFront cap buf = buf.drop (buf.length - cap) := by
  induction buf with
  | nil => rw [popFront, List.drop_nil]
  | cons sample buf ih =>
      rw [popFront, List.length_cons]
      split
      · next hfull => rw [ih, Nat.succ_sub (by omega), List.drop_succ_cons]
      · next hfits => rw [Nat.sub_eq_zero_of_le (by omega), List.drop_zero]

@[simp] theorem cap_write (ring : PcmRing) (samples : List Int16) : (ring.write samples).cap = ring.cap := rfl

@[simp] theorem cap_drainInto (ring : PcmRing) (len : ℕ) : (ring.drainInto len).1.cap = ring.cap := rfl

/-- What is drained: samples as far as there are any, then silence. -/
theorem drainInto_eq (ring : PcmRing) (len : ℕ) :
    (ring.drainInto len).1.buf = ring.buf.drop len ∧
      (ring.drainInto len).2.1 = ring.buf.take len ++ List.replicate (len - ring.buf.length) 0 ∧
        (ring.drainInto len).2.2 = min len ring.buf.length := by
  refine ⟨?_, ?_, rfl⟩
  · rw [PcmRing.drainInto]
    rcases Nat.le_total len ring.buf.length with h | h
    · rw [Nat.min_eq_left h]
    · rw [Nat.min_eq_right h, List.drop_length, List.drop_of_length_le h]
  · rw [PcmRing.drainInto]
    rcases Nat.le_total len ring.buf.length with h | h
    · rw [Nat.min_eq_left h, Nat.sub_self, Nat.sub_eq_zero_of_le h]
    · rw [Nat.min_eq_right h, List.take_length, List.take_of_length_le h]

/-! ### Packets and requests -/

/-- A packet of codes, or a request for so many frames. -/
inductive Event where
  | onAudioCodec (payload : List UInt8) (codec : AudioCodec)
  | callback (frames : ℕ)
  deriving DecidableEq, Repr

/-- `TalkbackDecoder::on_audio_codec`, and the callback of the sound card: what it gets, and how many frames
of it are samples. -/
def step (channels : ℕ) (ring : PcmRing) : Event → PcmRing × List Int16 × ℕ
  | .onAudioCodec payload codec => (ring.write (decode payload codec), [], 0)
  | .callback frames =>
      let drained := ring.drainInto frames
      (drained.1, expandI16 drained.2.1 channels, drained.2.2)

/-- The ring after some events. -/
def ringAfter (channels cap : ℕ) (events : List Event) : PcmRing := after (step channels) (.new cap) events

/-- The samples that an event decodes. -/
def Event.said : Event → List Int16
  | .onAudioCodec payload codec => decode payload codec
  | .callback _ => []

/-- The frames that the sound card got, without the silence. -/
def heard (channels cap : ℕ) (events : List Event) : List Int16 :=
  (log (step channels) (.new cap) events).flatMap fun x => x.2.1.take (x.2.2 * channels)

/-- What an event does to the ring. -/
def Event.act : Event → Window.Act Int16
  | .onAudioCodec payload codec => .write (decode payload codec)
  | .callback frames => .read frames

variable {channels cap : ℕ} {events before : List Event}

theorem written_act (events : List Event) :
    Window.written (events.map Event.act) = events.flatMap Event.said := by
  rw [Window.written, List.flatMap_map]
  refine List.flatMap_congr fun event _ => ?_
  cases event <;> rfl

theorem expandI16_append (mono mono' : List Int16) (channels : ℕ) :
    expandI16 (mono ++ mono') channels = expandI16 mono channels ++ expandI16 mono' channels :=
  List.flatMap_append

@[simp] theorem length_expandI16 (mono : List Int16) (channels : ℕ) :
    (expandI16 mono channels).length = mono.length * channels := by
  rw [expandI16, List.length_flatMap]
  simp

/-- What an event does to the ring, and what the sound card gets of it. -/
theorem step_act (channels : ℕ) (ring : PcmRing) (event : Event) :
    (step channels ring event).1 = { ring with buf := (Window.step ring.cap ring.buf event.act).1 } ∧
      (step channels ring event).2.1.take ((step channels ring event).2.2 * channels) =
        expandI16 (Window.step ring.cap ring.buf event.act).2 channels := by
  cases event with
  | onAudioCodec payload codec =>
      refine ⟨?_, List.take_nil⟩
      rw [step, PcmRing.write, popFront_eq]
      rfl
  | callback frames =>
      obtain ⟨hbuf, hout, hcount⟩ := drainInto_eq ring frames
      refine ⟨?_, ?_⟩
      · exact congrArg (PcmRing.mk · ring.cap) hbuf
      · rw [step, hout, hcount, expandI16_append, List.take_append_of_le_length, List.take_of_length_le]
        · rfl
        · simp
        · simp

/-- **The ring is a buffer that keeps the newest.** -/
theorem ringAfter_act (channels cap : ℕ) (events : List Event) :
    ringAfter channels cap events =
        { buf := after (Window.step cap) [] (events.map Event.act), cap := cap } ∧
      heard channels cap events = expandI16 (Window.taken cap (events.map Event.act)) channels := by
  induction events using List.reverseRecOn with
  | nil => exact ⟨rfl, rfl⟩
  | append_singleton events event ih =>
      obtain ⟨hring, hheard⟩ := ih
      obtain ⟨hstep, hout⟩ := step_act channels (ringAfter channels cap events) event
      rw [ringAfter] at hring hstep hout
      rw [hring] at hstep hout
      rw [List.map_append, List.map_singleton, Window.taken_concat, after_concat, expandI16_append, ← hheard,
        ← hout, ringAfter, after_concat, hring, hstep, heard, log_concat, List.flatMap_append, hring]
      exact ⟨rfl, congrArg _ (List.append_nil _)⟩

/-- No packet overflows the ring. -/
def Fits (channels cap : ℕ) (events : List Event) : Prop :=
  ∀ before payload codec, before ++ [.onAudioCodec payload codec] <+: events →
    (ringAfter channels cap before).buf.length + payload.length ≤ cap

/-- What is claimed of the playback. -/
structure Playback (channels cap : ℕ) (events : List Event) : Prop where
  /-- What waits is the newest that was said. -/
  waiting : (ringAfter channels cap events).buf <:+ events.flatMap Event.said ∧
    (ringAfter channels cap events).buf.length ≤ cap
  /-- Every channel is played what was said, in order and once, with what overflows left out. -/
  heard : ∃ mono, heard channels cap events = expandI16 mono channels ∧
    (mono ++ (ringAfter channels cap events).buf).Sublist (events.flatMap Event.said) ∧
      (Fits channels cap events → mono ++ (ringAfter channels cap events).buf = events.flatMap Event.said)
  /-- The sound card gets what it asks for, and silence when nothing is left. -/
  served : ∀ before frames, before ++ [.callback frames] <+: events →
    let answer := step channels (ringAfter channels cap before) (.callback frames)
    answer.2.1.length = frames * channels ∧ (answer.2.2 < frames → answer.1.buf = [])

theorem length_decode (payload : List UInt8) (codec : AudioCodec) :
    (decode payload codec).length = payload.length := by
  rw [decode_eq, List.length_map]

theorem fits_act (h : Fits channels cap events) (beforeActs : List (Window.Act Int16)) (l : List Int16)
    (hinitial : beforeActs ++ [.write l] <+: events.map Event.act) :
    (after (Window.step cap) [] beforeActs).length + l.length ≤ cap := by
  obtain ⟨events', hevents', hmap⟩ := List.prefix_map_iff.1 hinitial
  obtain ⟨before, last, rfl, rfl, hlast⟩ := List.map_eq_append_iff.1 hmap.symm
  obtain ⟨event, rfl, hact⟩ := List.map_eq_singleton_iff.1 hlast
  cases event with
  | onAudioCodec payload codec =>
      obtain rfl : decode payload codec = l := Window.Act.write.inj hact
      have hfits := h before payload codec hevents'
      rwa [(ringAfter_act channels cap before).1, ← length_decode payload codec] at hfits
  | callback frames => cases hact

/-- **Samples are played in the order they were said, none twice, no later than the ring is long, and each
unless the ring overflows.** -/
theorem playback (channels cap : ℕ) (events : List Event) : Playback channels cap events := by
  obtain ⟨hring, hheard⟩ := ringAfter_act channels cap events
  have hwaiting := Window.suffix_written cap (events.map Event.act)
  have hsublist := Window.taken_sublist cap (events.map Event.act)
  rw [written_act] at hwaiting hsublist
  refine ⟨?_, ⟨Window.taken cap (events.map Event.act), hheard, ?_, fun hfits => ?_⟩, ?_⟩
  · rwa [hring]
  · rwa [hring]
  · rw [hring, Window.taken_append (fits_act hfits), written_act]
  · intro before frames _ answer
    obtain ⟨hbuf, hout, hcount⟩ := drainInto_eq (ringAfter channels cap before) frames
    constructor
    · show (expandI16 _ channels).length = _
      rw [length_expandI16, hout, List.length_append, List.length_take, List.length_replicate]
      congr 1
      omega
    · intro hshort
      have hlength : min frames (ringAfter channels cap before).buf.length < frames := hcount ▸ hshort
      exact hbuf.trans (List.drop_of_length_le (by omega))

end Talkback

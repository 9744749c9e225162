/-
**Pushing frames over RTMP.**

`RtmpOutput` in `crates/streaming/src/output/rtmp.rs`.  Between `start` and `stop` it turns every
video frame into RTMP video messages: the NAL units that `parse_h264_nal_units` finds, with their
lengths, and at the first keyframe an AVC sequence header from the SPS and PPS of that frame.  Two
things go wrong silently.  A frame that is a single NAL unit without a start code, which is what
the encoder delivers, is read as AVCC and lost.  And the flag that the sequence header has been
sent is set at the first keyframe whether or not there was anything to send.

Main definitions:

* `Rtmp.buildVideoSequenceHeader`, `Rtmp.buildVideoNalus` — the payloads;
* `Rtmp.RtmpOutput`, with `start`, `sendFrame`, `stop` and `run`;
* `Rtmp.NalFrame`, `Rtmp.Carriage` — frames by the NAL units they carry.

Main results:

* `Rtmp.RtmpOutput.run_eq` — the messages of a run depend on the frames and one flag;
* `Rtmp.RtmpOutput.delivers_iff` — **every NAL unit is sent once exactly when all are shorter than
  four bytes**;
* `Rtmp.RtmpOutput.headerFirst_iff` — **when the sequence header comes first**.
-/

import MibeeEye.H264Nal
import MibeeEye.RtmpPushClient
import Mathlib.Data.List.MinMax

set_option relaxedAutoImplicit false
set_option autoImplicit false

namespace Rtmp

open Wire H264

/-! ### Payloads -/

/-- `build_video_sequence_header`. -/
def buildVideoSequenceHeader (sps pps : List UInt8) : List UInt8 :=
  let profile := if 3 ≤ sps.length then sps.getD 1 0 else 0x42
  let level := if 3 ≤ sps.length then sps.getD 2 0 else 0x1E
  let profileCompat := if 4 ≤ sps.length then sps.getD 3 0 else 0x80
  [0x17, 0x00, 0x00, 0x00, 0x00] ++ [0x01, profile, profileCompat, level, 0xFF, 0xE1] ++
    beBytes 2 sps.length ++ sps ++ [0x01] ++ beBytes 2 pps.length ++ pps

/-- `build_video_nalus`. -/
def buildVideoNalus (nalData : List UInt8) (isKeyframe : Bool) (compositionOffset : ℤ) :
    List UInt8 :=
  let frameType : UInt8 := if isKeyframe then 1 else 2
  let offset := max (-8388608) (min compositionOffset 8388607)
  [(frameType <<< 4) ||| 7, 0x00, 0x00, 0x00, 0x01] ++ beBytes 3 (offset % 2 ^ 24).toNat ++ nalData

/-- A payload by what it was built from. -/
inductive VideoPayload
  | sequenceHeader (sps pps : List UInt8)
  | nalus (nals : List (List UInt8)) (keyframe : Bool)
  deriving DecidableEq, Repr

/-- The bytes of a payload. -/
@[grind =] def VideoPayload.bytes : VideoPayload → List UInt8
  | sequenceHeader sps pps => buildVideoSequenceHeader sps pps
  | nalus nals keyframe => buildVideoNalus (avcc nals) keyframe 0

/-- The AVCC body of a video payload of packet type 1. -/
def avccBody (payload : List UInt8) : Option (List UInt8) :=
  if payload[4]? = some 1 then some (payload.drop 8) else none

theorem avccBody_sequenceHeader (sps pps : List UInt8) :
    avccBody (VideoPayload.sequenceHeader sps pps).bytes = none := by
  simp [avccBody, VideoPayload.bytes, buildVideoSequenceHeader]

theorem avccBody_nalus (nals : List (List UInt8)) (keyframe : Bool) :
    avccBody (VideoPayload.nalus nals keyframe).bytes = some (avcc nals) := by
  simp [avccBody, VideoPayload.bytes, buildVideoNalus]

/-- A call of `RtmpPushClient::send_video` by `RtmpOutput`. -/
structure SentVideo where
  payload : VideoPayload
  timestamp : ℕ
  deriving DecidableEq, Repr

/-- The call, as the client sees it. -/
def SentVideo.op (s : SentVideo) : RtmpPushClient.Op := .sendVideo s.payload.bytes s.timestamp

/-! ### The output -/

/-- `MediaFrame`. -/
inductive MediaFrame
  | video (keyframe : Bool) (data : List UInt8) (timestamp : ℕ)
  | audio (data : List UInt8) (timestamp : ℕ)

/-- `RtmpOutput`; it only ever holds a client that is connected. -/
structure RtmpOutput where
  url : String
  appName : String
  streamKey : String
  host : String
  port : UInt16
  client : Option RtmpPushClient := none
  started : Bool := false
  seqHeaderSent : Bool := false
  connected : ∀ c ∈ client, c.connected = true := by simp

namespace RtmpOutput

/-- `RtmpOutput::new_with_parts`. -/
def newWithParts (host : String) (port : UInt16) (app stream : String) : RtmpOutput :=
  { url := s!"rtmp://{host}:{port}/{app}/{stream}", appName := app, streamKey := stream, host, port }

end RtmpOutput

/-- A client whose `connect` succeeded holds a socket. -/
theorem RtmpPushClient.connected_of_connect {client : RtmpPushClient} {reads : List (List UInt8)}
    {u : Unit} (h : (client.connect reads).2.2 = .ok u) :
    (client.connect reads).2.1.connected = true := by
  unfold RtmpPushClient.connect at h ⊢
  dsimp only at h ⊢
  split at h
  · rfl
  · cases h

/-- Sending video keeps the socket. -/
theorem RtmpPushClient.connected_step_sendVideo {client : RtmpPushClient} {data : List UInt8} {t : ℕ}
    (h : client.connected = true) : (client.step (.sendVideo data t)).2.connected = true := by
  simp only [RtmpPushClient.step, h, if_true]

namespace RtmpOutput

/-- `RtmpOutput::start`, on a socket that reads as given. -/
def start (out : RtmpOutput) (reads : List (List UInt8)) : RtmpOutput × Except String Unit :=
  if out.url = "" then (out, .error "RtmpOutput URL must not be empty")
  else
    let client := RtmpPushClient.new out.host out.port out.appName out.streamKey
    match h : (client.connect reads).2.2 with
    | .error e => (out, .error e)
    | .ok () =>
        ({ out with
            client := some (client.connect reads).2.1
            started := true
            seqHeaderSent := false
            connected := by
              intro c hc
              rw [← Option.some.inj hc]
              exact RtmpPushClient.connected_of_connect h }, .ok ())

/-- The client after the calls. -/
def clientAfter : RtmpPushClient → List SentVideo → RtmpPushClient
  | client, [] => client
  | client, s :: sent => clientAfter (client.step s.op).2 sent

theorem connected_clientAfter : ∀ (sent : List SentVideo) {client : RtmpPushClient},
    client.connected = true → (clientAfter client sent).connected = true := by
  intro sent
  induction sent with
  | nil =>
      intro client h
      exact h
  | cons s sent ih =>
      intro client h
      exact ih (RtmpPushClient.connected_step_sendVideo h)

/-- The messages `send_frame` sends for the NAL units of a video frame, given whether the sequence
header counts as sent. -/
def messages (seqHeaderSent keyframe : Bool) (nals : List (List UInt8)) : List VideoPayload :=
  if nals = [] then []
  else
    let header :=
      if keyframe && !seqHeaderSent then
        match nals.find? isSps, nals.find? isPps with
        | some sps, some pps => [VideoPayload.sequenceHeader sps pps]
        | _, _ => []
      else []
    header ++ [.nalus nals keyframe]

/-- **`RtmpOutput::send_frame`**: what it sends, the output afterwards and the result. -/
@[grind =]
def sendFrame (out : RtmpOutput) : MediaFrame → List SentVideo × RtmpOutput × Except String Unit
  | .video keyframe data timestamp =>
      if !out.started then ([], out, .error "RtmpOutput not started")
      else
        match h : out.client with
        | none => ([], out, .error "RtmpOutput client not connected")
        | some client =>
            let nalUnits := parseH264NalUnits data
            let sent := (messages out.seqHeaderSent keyframe nalUnits).map fun payload =>
              ⟨payload, timestamp % 2 ^ 32⟩
            (sent,
              { out with
                client := some (clientAfter client sent)
                -- the flag is set at the first keyframe, also when no header was sent
                seqHeaderSent := out.seqHeaderSent || (keyframe && !nalUnits.isEmpty)
                connected := by
                  intro c hc
                  rw [← Option.some.inj hc]
                  exact connected_clientAfter _ (out.connected client h) },
              .ok ())
  | .audio _ _ => ([], out, .ok ())

/-- `RtmpOutput::stop`. -/
def stop (out : RtmpOutput) : RtmpOutput :=
  { out with client := none, started := false, connected := by simp }

/-- The messages sent for a sequence of frames. -/
def run : RtmpOutput → List MediaFrame → List SentVideo
  | _, [] => []
  | out, frame :: frames => (out.sendFrame frame).1 ++ run (out.sendFrame frame).2.1 frames

/-- An output between a successful `start` and `stop`. -/
def Started (out : RtmpOutput) : Prop := out.started = true ∧ out.client.isSome

/-- `start` that succeeds leaves the output started, with no sequence header sent. -/
theorem started_of_start {out out' : RtmpOutput} {reads : List (List UInt8)} {u : Unit}
    (h : out.start reads = (out', .ok u)) : out'.Started ∧ out'.seqHeaderSent = false := by
  unfold start at h
  split at h
  · cases (Prod.mk.inj h).2
  · dsimp only at h
    split at h
    · cases (Prod.mk.inj h).2
    · rw [← (Prod.mk.inj h).1]
      exact ⟨⟨rfl, rfl⟩, rfl⟩

/-! ### A run depends on the frames and one flag -/

/-- The messages for a sequence of video frames, from the flag that the sequence header counts as
sent. -/
@[grind =] def messagesOf : Bool → List MediaFrame → List SentVideo
  | _, [] => []
  | flag, .video keyframe data timestamp :: frames =>
      (messages flag keyframe (parseH264NalUnits data)).map (fun p => ⟨p, timestamp % 2 ^ 32⟩) ++
        messagesOf (flag || (keyframe && !(parseH264NalUnits data).isEmpty)) frames
  | flag, .audio _ _ :: frames => messagesOf flag frames

/-- One frame, on a started output. -/
theorem sendFrame_video {out : RtmpOutput} (h : out.Started) (keyframe : Bool) (data : List UInt8)
    (timestamp : ℕ) :
    (out.sendFrame (.video keyframe data timestamp)).1 =
        (messages out.seqHeaderSent keyframe (parseH264NalUnits data)).map
          (fun p => ⟨p, timestamp % 2 ^ 32⟩) ∧
      (out.sendFrame (.video keyframe data timestamp)).2.1.Started ∧
      (out.sendFrame (.video keyframe data timestamp)).2.1.seqHeaderSent =
        (out.seqHeaderSent || (keyframe && !(parseH264NalUnits data).isEmpty)) := by
  obtain ⟨hstarted, hclient⟩ := h
  simp only [sendFrame, hstarted, Bool.not_true, Bool.false_eq_true, if_false]
  split
  · rename_i hnone
    rw [hnone] at hclient
    cases hclient
  · exact ⟨rfl, ⟨rfl, rfl⟩, rfl⟩

/-- **The messages of a run depend on the frames and one flag.** -/
theorem run_eq : ∀ (frames : List MediaFrame) {out : RtmpOutput}, out.Started →
    out.run frames = messagesOf out.seqHeaderSent frames := by
  intro frames
  induction frames with
  | nil =>
      intro out _
      rfl
  | cons frame frames ih =>
      intro out h
      cases frame with
      | video keyframe data timestamp =>
          obtain ⟨hsent, hstarted, hflag⟩ := sendFrame_video h keyframe data timestamp
          rw [run, hsent, ih hstarted, hflag]
          rfl
      | audio data timestamp =>
          rw [run]
          exact ih h

/-- A message is the NAL units of some frame, or a sequence header. -/
theorem mem_messagesOf : ∀ (frames : List MediaFrame) {flag : Bool} {s : SentVideo},
    s ∈ messagesOf flag frames →
    (∃ sps pps, s.payload = .sequenceHeader sps pps) ∨
      ∃ k d t, MediaFrame.video k d t ∈ frames ∧ s.payload = .nalus (parseH264NalUnits d) k := by
  intro frames
  induction frames with
  | nil =>
      intro flag s h
      cases h
  | cons frame frames ih =>
      intro flag s h
      cases frame with
      | audio data timestamp =>
          rcases ih h with hs | ⟨k, d, t, hmem, hs⟩
          · exact Or.inl hs
          · exact Or.inr ⟨k, d, t, List.mem_cons_of_mem _ hmem, hs⟩
      | video keyframe data timestamp =>
          rcases List.mem_append.1 h with h | h
          · obtain ⟨p, hp, rfl⟩ := List.mem_map.1 h
            unfold messages at hp
            split at hp
            · cases hp
            · rcases List.mem_append.1 hp with hp | hp
              · split at hp
                · split at hp
                  · exact Or.inl ⟨_, _, List.mem_singleton.1 hp⟩
                  · cases hp
                · cases hp
              · exact Or.inr ⟨keyframe, data, timestamp, List.mem_cons_self,
                  List.mem_singleton.1 hp⟩
          · rcases ih h with hs | ⟨k, d, t, hmem, hs⟩
            · exact Or.inl hs
            · exact Or.inr ⟨k, d, t, List.mem_cons_of_mem _ hmem, hs⟩

end RtmpOutput

/-! ### One NAL unit per frame -/

/-- A frame that carries one NAL unit with its start code stripped, as the encoder delivers it. -/
structure NalFrame where
  nal : NalUnit
  keyframe : Bool
  timestamp : ℕ

/-- The frame. -/
def NalFrame.frame (f : NalFrame) : MediaFrame := .video f.keyframe f.nal.bytes f.timestamp

namespace RtmpOutput

/-- **Every NAL unit is sent exactly once**: for each one carried by a frame, there are as many
video messages whose AVCC body is the NAL unit with its length as there are frames that carry it.
-/
def Delivers (out : RtmpOutput) (frames : List NalFrame) : Prop :=
  ∀ f ∈ frames,
    (out.run (frames.map NalFrame.frame)).countP
        (fun s => avccBody s.payload.bytes = some (beBytes 4 f.nal.bytes.length ++ f.nal.bytes))
      = frames.countP (fun g => g.nal.bytes = f.nal.bytes)

theorem avcc_singleton (nal : List UInt8) : avcc [nal] = beBytes 4 nal.length ++ nal := by
  simp [avcc]

/-- Lengths are four bytes, so two NAL units with their lengths are equal only if they are. -/
theorem avcc_singleton_inj {a b : List UInt8} : avcc [a] = avcc [b] ↔ a = b := by
  constructor
  · intro h
    rw [avcc_singleton, avcc_singleton] at h
    exact (List.append_inj h (by simp)).2
  · intro h
    rw [h]

/-- One short NAL unit per frame: one message per frame. -/
theorem messagesOf_short : ∀ (frames : List NalFrame), (∀ f ∈ frames, f.nal.bytes.length < 4) →
    ∀ flag, messagesOf flag (frames.map NalFrame.frame) =
      frames.map fun f => ⟨.nalus [f.nal.bytes] f.keyframe, f.timestamp % 2 ^ 32⟩ := by
  intro frames
  induction frames with
  | nil =>
      intro _ flag
      rfl
  | cons f frames ih =>
      intro hshort flag
      have hparse := parse_short (hshort f (by simp))
      -- one NAL unit cannot be both an SPS and a PPS
      have hone : messages flag f.keyframe [f.nal.bytes] = [.nalus [f.nal.bytes] f.keyframe] := by
        unfold messages
        rw [if_neg (by simp)]
        dsimp only
        split
        · cases hsps : isSps f.nal.bytes with
          | false => simp [hsps]
          | true =>
              have hpps : isPps f.nal.bytes = false := by
                simp only [isSps, beq_iff_eq] at hsps
                simp [isPps, hsps]
              simp [hpps]
        · rfl
      rw [List.map_cons, NalFrame.frame, messagesOf, hparse, hone,
        ih (fun g hg => hshort g (by simp [hg]))]
      rfl

/-- No message has room for the longest NAL unit, when it has four bytes or more. -/
theorem not_sent_longest {frames : List NalFrame} {f : NalFrame} (hlong : 4 ≤ f.nal.bytes.length)
    (hmax : ∀ g ∈ frames, g.nal.bytes.length ≤ f.nal.bytes.length) {flag : Bool} {s : SentVideo}
    (hs : s ∈ messagesOf flag (frames.map NalFrame.frame)) :
    avccBody s.payload.bytes ≠ some (avcc [f.nal.bytes]) := by
  intro hbody
  rcases mem_messagesOf _ hs with ⟨sps, pps, hp⟩ | ⟨k, d, t, hmem, hp⟩
  · rw [hp, avccBody_sequenceHeader] at hbody
    cases hbody
  · rw [hp, avccBody_nalus, Option.some.injEq] at hbody
    obtain ⟨g, hg, hframe⟩ := List.mem_map.1 hmem
    have hd : d = g.nal.bytes := by
      rw [NalFrame.frame] at hframe
      exact (MediaFrame.video.inj hframe).2.1.symm
    have hle := hmax g hg
    have hlen := congrArg List.length hbody
    rw [hd, length_avcc_singleton] at hlen
    by_cases hshort : g.nal.bytes.length < 4
    · rw [parse_short hshort, length_avcc_singleton] at hlen
      omega
    · have hlong : 4 ≤ g.nal.bytes.length := by omega
      have := length_avcc_parse_long hlong
      omega

/-- **Every NAL unit is sent once exactly when all are shorter than four bytes.** -/
theorem delivers_iff {out : RtmpOutput} (h : out.Started) (frames : List NalFrame) :
    out.Delivers frames ↔ ∀ f ∈ frames, f.nal.bytes.length < 4 := by
  constructor
  · intro hdel
    by_contra hlong
    push Not at hlong
    obtain ⟨f₀, hf₀, hf₀len⟩ := hlong
    -- the longest NAL unit has four bytes or more, and nothing is long enough to carry it
    obtain ⟨f, hf⟩ : ∃ f, f ∈ frames.argmax fun f => f.nal.bytes.length := by
      cases harg : frames.argmax fun f => f.nal.bytes.length with
      | none =>
          rw [List.argmax_eq_none] at harg
          rw [harg] at hf₀
          cases hf₀
      | some f => exact ⟨f, rfl⟩
    have hmem := List.argmax_mem hf
    have hmax : ∀ g ∈ frames, g.nal.bytes.length ≤ f.nal.bytes.length := by
      intro g hg
      exact List.le_of_mem_argmax (f := fun f : NalFrame => f.nal.bytes.length) hg hf
    have hflen := hf₀len.trans (hmax f₀ hf₀)
    have hcount := hdel f hmem
    have hpos : 0 < frames.countP fun g => g.nal.bytes = f.nal.bytes :=
      List.countP_pos_iff.2 ⟨f, hmem, by simp⟩
    rw [← hcount, List.countP_pos_iff, run_eq _ h] at hpos
    obtain ⟨s, hs, hbody⟩ := hpos
    rw [decide_eq_true_eq, ← avcc_singleton] at hbody
    exact not_sent_longest hflen hmax hs hbody
  · intro hshort f hf
    rw [run_eq _ h, messagesOf_short frames hshort, List.countP_map]
    refine List.countP_congr ?_
    intro g _
    simp only [Function.comp_apply, decide_eq_true_eq, avccBody_nalus, Option.some.injEq]
    rw [← avcc_singleton, avcc_singleton_inj]

/-- An output that has just been started. -/
def justStarted : RtmpOutput :=
  { newWithParts "nvr" 1935 "live" "cam" with
    client := some { RtmpPushClient.new "nvr" 1935 "live" "cam" with connected := true }
    started := true
    connected := by
      intro c hc
      rw [← Option.some.inj hc] }

/-- An access unit delimiter of two bytes is sent. -/
theorem delivers_iff_delimiter :
    justStarted.Delivers [⟨⟨[0x09, 0x10], by decide, by decide⟩, false, 0⟩] :=
  (delivers_iff ⟨rfl, rfl⟩ _).2 (by simp)

/-- An SPS, a PPS and an IDR slice, one per frame: not one of them is sent. -/
theorem not_delivers_idr :
    ¬ justStarted.Delivers [
      ⟨⟨[0x67, 0x42, 0x80, 0x1E], by decide, by decide⟩, true, 0⟩,
      ⟨⟨[0x68, 0xCE, 0x3C, 0x80], by decide, by decide⟩, true, 0⟩,
      ⟨⟨[0x65, 0x88, 0x84, 0x21], by decide, by decide⟩, true, 0⟩] := by
  intro h
  have hfirst := h _ List.mem_cons_self
  revert hfirst
  decide

end RtmpOutput

/-! ### The sequence header -/

/-- How the NAL units of a frame are put into its bytes: behind start codes (of four bytes where the
flag says so), behind lengths, or as a single one without either. -/
inductive Carriage
  | annexB (nals : List (Bool × NalUnit))
  | avcc (nals : List NalUnit)
  | stripped (nal : NalUnit)

/-- The NAL units carried. -/
def Carriage.nals : Carriage → List (List UInt8)
  | annexB nals => nals.map fun x => x.2.bytes
  | avcc nals => nals.map NalUnit.bytes
  | stripped nal => [nal.bytes]

/-- The bytes of the frame. -/
def Carriage.data : Carriage → List UInt8
  | annexB nals => nals.flatMap fun x =>
      (if x.1 then [0x00, 0x00, 0x00, 0x01] else [0x00, 0x00, 0x01]) ++ x.2.bytes
  | avcc nals => H264.avcc (nals.map NalUnit.bytes)
  | stripped nal => nal.bytes

/-- A video frame by the NAL units it carries. -/
structure CarriedFrame where
  carriage : Carriage
  keyframe : Bool
  timestamp : ℕ

namespace CarriedFrame

/-- The frame. -/
def frame (f : CarriedFrame) : MediaFrame := .video f.keyframe f.carriage.data f.timestamp

/-- The NAL units `send_frame` finds in the frame. -/
def parsed (f : CarriedFrame) : List (List UInt8) := parseH264NalUnits f.carriage.data

/-- A frame at which `send_frame` looks for parameter sets: it has the keyframe flag, and something
is found in it. -/
def keyed (f : CarriedFrame) : Bool := f.keyframe && !f.parsed.isEmpty

/-- The message with the frame's NAL units. -/
def body (f : CarriedFrame) : List SentVideo :=
  if f.parsed = [] then [] else [⟨.nalus f.parsed f.keyframe, f.timestamp % 2 ^ 32⟩]

/-- The sequence header from the frame's own parameter sets. -/
def header (f : CarriedFrame) : List SentVideo :=
  match f.parsed.find? isSps, f.parsed.find? isPps with
  | some sps, some pps => [⟨.sequenceHeader sps pps, f.timestamp % 2 ^ 32⟩]
  | _, _ => []

end CarriedFrame

/-- The NAL units that precede the first slice of a sequence of frames. -/
def beforeSlice (frames : List CarriedFrame) : List (List UInt8) :=
  (frames.flatMap fun f => f.carriage.nals).takeWhile fun nal => !isSlice nal

namespace SentVideo

/-- An AVC sequence header message. -/
def isHeader (s : SentVideo) : Bool :=
  match s.payload with
  | .sequenceHeader _ _ => true
  | .nalus _ _ => false

/-- A message with a slice in it. -/
def carriesSlice (s : SentVideo) : Bool :=
  match s.payload with
  | .sequenceHeader _ _ => false
  | .nalus nals _ => nals.any isSlice

end SentVideo

namespace RtmpOutput

/-- **The sequence header comes first**: a message built from an SPS and a PPS that precede the
first slice is sent before every message with a slice in it, and it is the only sequence header.
-/
def HeaderFirst (out : RtmpOutput) (frames : List CarriedFrame) : Prop :=
  ∃ sps ∈ beforeSlice frames, ∃ pps ∈ beforeSlice frames, ∃ pre s post,
    out.run (frames.map CarriedFrame.frame) = pre ++ s :: post ∧
      s.payload = .sequenceHeader sps pps ∧ (∀ x ∈ pre, x.carriesSlice = false) ∧
      ∀ x ∈ pre ++ post, x.isHeader = false

/-- **The frames bring the parameter sets at the right place**: the first keyframe in which
`send_frame` finds anything has an SPS and a PPS, the first of each precedes the first slice, and no
slice is found in an earlier frame. -/
def ParametersInFirstKeyframe (frames : List CarriedFrame) : Prop :=
  ∃ pre f post, frames = pre ++ f :: post ∧ (∀ g ∈ pre, g.keyed = false) ∧ f.keyed = true ∧
    (∃ sps ∈ beforeSlice frames, f.parsed.find? isSps = some sps) ∧
    (∃ pps ∈ beforeSlice frames, f.parsed.find? isPps = some pps) ∧
    ∀ g ∈ pre, ∀ nal ∈ g.parsed, isSlice nal = false

/-- Once the flag is set, and before a keyframe, only NAL units are sent. -/
theorem messagesOf_body (flag : Bool) : ∀ (pre : List CarriedFrame) (rest : List MediaFrame),
    (flag = true ∨ ∀ f ∈ pre, f.keyed = false) →
    messagesOf flag (pre.map CarriedFrame.frame ++ rest) =
      pre.flatMap CarriedFrame.body ++ messagesOf flag rest := by
  intro pre
  induction pre with
  | nil =>
      intro rest _
      rfl
  | cons f pre ih =>
      intro rest h
      have hflag : (flag || f.keyed) = flag := by
        rcases h with h | h
        · rw [h, Bool.true_or]
        · rw [h f (by simp), Bool.or_false]
      have hrest : flag = true ∨ ∀ g ∈ pre, g.keyed = false := by
        rcases h with h | h
        · exact Or.inl h
        · exact Or.inr fun g hg => h g (by simp [hg])
      have hbody : (messages flag f.keyframe f.parsed).map
          (fun p => (⟨p, f.timestamp % 2 ^ 32⟩ : SentVideo)) = f.body := by
        unfold messages CarriedFrame.body
        by_cases hnil : f.parsed = []
        · rw [if_pos hnil, if_pos hnil]
          rfl
        · have hno : (f.keyframe && !flag) = false := by
            rcases h with h | h
            · rw [h, Bool.not_true, Bool.and_false]
            · have hk := h f (by simp)
              have hne : f.parsed.isEmpty = false := by simpa using hnil
              rw [CarriedFrame.keyed, hne, Bool.not_false, Bool.and_true] at hk
              rw [hk, Bool.false_and]
          rw [if_neg hnil, if_neg hnil, hno]
          rfl
      rw [List.map_cons, List.cons_append, CarriedFrame.frame, messagesOf]
      change _ ++ messagesOf (flag || f.keyed) _ = _
      rw [hflag, ih rest hrest, List.flatMap_cons, List.append_assoc]
      exact congrArg (· ++ _) hbody

/-- The first keyframe in which anything is found. -/
theorem messagesOf_keyed {f : CarriedFrame} (hf : f.keyed = true) (post : List CarriedFrame) :
    messagesOf false ((f :: post).map CarriedFrame.frame) =
      f.header ++ (f.body ++ post.flatMap CarriedFrame.body) := by
  have hpost := messagesOf_body true post [] (Or.inl rfl)
  rw [List.append_nil] at hpost
  have hparts : f.keyframe = true ∧ f.parsed ≠ [] := by
    simpa [CarriedFrame.keyed] using hf
  have hmessages : (messages false f.keyframe f.parsed).map
      (fun p => (⟨p, f.timestamp % 2 ^ 32⟩ : SentVideo)) = f.header ++ f.body := by
    unfold messages CarriedFrame.header CarriedFrame.body
    rw [if_neg hparts.2, if_neg hparts.2, hparts.1]
    simp only [Bool.not_false, Bool.and_true, if_true, List.map_append]
    split <;> rfl
  rw [List.map_cons, CarriedFrame.frame, messagesOf]
  change List.map _ (messages false f.keyframe f.parsed) ++ messagesOf (false || f.keyed) _ = _
  rw [hf, Bool.or_true, hpost, hmessages, List.append_assoc]
  simp [messagesOf]

theorem isHeader_body {frames : List CarriedFrame} {s : SentVideo}
    (hs : s ∈ frames.flatMap CarriedFrame.body) : s.isHeader = false := by
  obtain ⟨f, -, hs⟩ := List.mem_flatMap.1 hs
  unfold CarriedFrame.body at hs
  split at hs
  · cases hs
  · rw [List.mem_singleton.1 hs]
    rfl

/-- The bodies of frames without a slice carry none, and only those. -/
theorem carriesSlice_body {frames : List CarriedFrame} :
    (∀ s ∈ frames.flatMap CarriedFrame.body, s.carriesSlice = false) ↔
      ∀ f ∈ frames, ∀ nal ∈ f.parsed, isSlice nal = false := by
  constructor
  · intro h f hf nal hnal
    have hne : f.parsed ≠ [] := List.ne_nil_of_mem hnal
    have hmem : (⟨.nalus f.parsed f.keyframe, f.timestamp % 2 ^ 32⟩ : SentVideo) ∈ f.body := by
      rw [CarriedFrame.body, if_neg hne]
      exact List.mem_singleton_self _
    have hs := h _ (List.mem_flatMap.2 ⟨f, hf, hmem⟩)
    simpa using (List.any_eq_false.1 hs) nal hnal
  · intro h s hs
    obtain ⟨f, hf, hs⟩ := List.mem_flatMap.1 hs
    unfold CarriedFrame.body at hs
    split at hs
    · cases hs
    · rw [List.mem_singleton.1 hs]
      exact List.any_eq_false.2 fun nal hnal => by simp [h f hf nal hnal]

/-- **When the sequence header comes first.** -/
theorem headerFirst_iff {out : RtmpOutput} (h : out.Started) (hflag : out.seqHeaderSent = false)
    (frames : List CarriedFrame) :
    out.HeaderFirst frames ↔ ParametersInFirstKeyframe frames := by
  constructor
  · rintro ⟨sps, hsps, pps, hpps, before, s, after, hrun, hs, hslice, honly⟩
    rw [run_eq _ h, hflag] at hrun
    have hnot : ∀ {fs : List CarriedFrame}, s ∉ fs.flatMap CarriedFrame.body := by
      intro fs hmem
      have := isHeader_body hmem
      simp [SentVideo.isHeader, hs] at this
    cases hfind : frames.find? CarriedFrame.keyed with
    | none =>
        -- without a keyframe there is no sequence header
        have hnone : ∀ f ∈ frames, f.keyed = false := by
          intro f hf
          simpa using List.find?_eq_none.1 hfind f hf
        have hbody := messagesOf_body false frames [] (Or.inr hnone)
        rw [List.append_nil] at hbody
        rw [hbody, messagesOf, List.append_nil] at hrun
        exact absurd (by rw [hrun]; simp) hnot
    | some f =>
        obtain ⟨hf, pre, post, hframes, hpre⟩ := List.find?_eq_some_iff_append.1 hfind
        have hpre' : ∀ g ∈ pre, g.keyed = false := by
          intro g hg
          simpa using hpre g hg
        have hrest : f.body ++ post.flatMap CarriedFrame.body
            = (f :: post).flatMap CarriedFrame.body := rfl
        rw [hframes, List.map_append, messagesOf_body false pre _ (Or.inr hpre'),
          messagesOf_keyed hf, hrest] at hrun
        -- the header comes from the keyframe's own parameter sets
        have hmem : s ∈ f.header := by
          have hs' : s ∈ pre.flatMap CarriedFrame.body ++
              (f.header ++ (f :: post).flatMap CarriedFrame.body) := by
            rw [hrun]
            simp
          rcases List.mem_append.1 hs' with hs' | hs'
          · exact absurd hs' hnot
          · rcases List.mem_append.1 hs' with hs' | hs'
            · exact hs'
            · exact absurd hs' hnot
        have hheader : ∃ sps' pps', f.parsed.find? isSps = some sps' ∧
            f.parsed.find? isPps = some pps' := by
          unfold CarriedFrame.header at hmem
          split at hmem
          · rename_i sps' pps' hfs hfp
            exact ⟨sps', pps', hfs, hfp⟩
          · cases hmem
        obtain ⟨sps', pps', hfs, hfp⟩ := hheader
        have hh : f.header = [⟨.sequenceHeader sps' pps', f.timestamp % 2 ^ 32⟩] := by
          simp [CarriedFrame.header, hfs, hfp]
        rw [hh, List.singleton_append] at hrun
        obtain ⟨hbefore, hsame, -⟩ := (List.append_cons_inj_of_notMem hnot hnot).1 hrun
        rw [← hsame] at hs
        obtain ⟨rfl, rfl⟩ := VideoPayload.sequenceHeader.inj hs
        refine ⟨pre, f, post, hframes, hpre', hf, ⟨sps', hsps, hfs⟩, ⟨pps', hpps, hfp⟩, ?_⟩
        rw [← hbefore] at hslice
        exact carriesSlice_body.1 hslice
  · rintro ⟨pre, f, post, hframes, hpre, hf, ⟨sps, hsps, hfs⟩, ⟨pps, hpps, hfp⟩, hslice⟩
    have hh : f.header = [⟨.sequenceHeader sps pps, f.timestamp % 2 ^ 32⟩] := by
      simp [CarriedFrame.header, hfs, hfp]
    refine ⟨sps, hsps, pps, hpps, pre.flatMap CarriedFrame.body,
      ⟨.sequenceHeader sps pps, f.timestamp % 2 ^ 32⟩, (f :: post).flatMap CarriedFrame.body, ?_, rfl,
      carriesSlice_body.2 hslice, ?_⟩
    · rw [run_eq _ h, hflag, hframes, List.map_append, messagesOf_body false pre _ (Or.inr hpre),
        messagesOf_keyed hf, hh]
      rfl
    · intro x hx
      rcases List.mem_append.1 hx with hx | hx
      · exact isHeader_body hx
      · exact isHeader_body hx

/-- An SPS, a PPS and an IDR slice. -/
def spsNal : NalUnit := { bytes := [0x67, 0x42, 0x80, 0x1E] }
@[inherit_doc spsNal] def ppsNal : NalUnit := { bytes := [0x68, 0xCE, 0x3C, 0x80] }
@[inherit_doc spsNal] def idrNal : NalUnit := { bytes := [0x65, 0x88, 0x84, 0x21] }

/-- All three in one keyframe: the sequence header is sent first. -/
theorem headerFirst_iff_one_frame :
    justStarted.HeaderFirst
      [⟨.annexB [(true, spsNal), (true, ppsNal), (true, idrNal)], true, 40⟩] := by
  refine (headerFirst_iff ⟨rfl, rfl⟩ rfl _).2 ⟨[], _, [], rfl, by simp, by decide,
    ⟨spsNal.bytes, by decide, by decide⟩,
    ⟨ppsNal.bytes, by decide, by decide⟩, by simp⟩

/-- Each in a keyframe of its own: SPS and PPS precede the slice, and no sequence header is sent. -/
theorem not_headerFirst_three_frames :
    (∃ sps ∈ beforeSlice [⟨.annexB [(true, spsNal)], true, 40⟩, ⟨.annexB [(true, ppsNal)], true, 40⟩,
        ⟨.annexB [(true, idrNal)], true, 40⟩], isSps sps) ∧
      (∃ pps ∈ beforeSlice [⟨.annexB [(true, spsNal)], true, 40⟩,
        ⟨.annexB [(true, ppsNal)], true, 40⟩, ⟨.annexB [(true, idrNal)], true, 40⟩], isPps pps) ∧
      ¬ justStarted.HeaderFirst [⟨.annexB [(true, spsNal)], true, 40⟩,
        ⟨.annexB [(true, ppsNal)], true, 40⟩, ⟨.annexB [(true, idrNal)], true, 40⟩] := by
  refine ⟨⟨spsNal.bytes, by decide, by decide⟩, ⟨ppsNal.bytes, by decide, by decide⟩,
    ?_⟩
  rintro ⟨sps, -, pps, -, pre, s, post, hrun, hs, -, -⟩
  have hnone : (justStarted.run (List.map CarriedFrame.frame [⟨.annexB [(true, spsNal)], true, 40⟩,
      ⟨.annexB [(true, ppsNal)], true, 40⟩, ⟨.annexB [(true, idrNal)], true, 40⟩])).all
      (fun s => !s.isHeader) = true := by decide
  have := List.all_eq_true.1 hnone s (by rw [hrun]; simp)
  simp [SentVideo.isHeader, hs] at this

end RtmpOutput

end Rtmp

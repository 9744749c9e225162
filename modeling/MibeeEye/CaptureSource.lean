/-
**The camera as a source of frames.**

`VideoCaptureSource` in `crates/streaming/src/capture_source.rs`, between `start` and `stop`.  The
encoder turns a picture into several NAL units, and `next_frame` returns one of them: the first
directly, the others one for each later call.  The first carries the clock as it was read before
the picture was encoded; each of the others carries the clock as it is when it is returned.  The
substream, which is encoded from the same picture, gives all its NAL units the clock of the picture.

A call of `next_frame` is a step of its own when it finds a NAL unit left over; otherwise it waits,
and each picture of the camera that it takes is a step.  What the clock shows, in milliseconds since
the source was started, is part of the event.  The conversions of pictures and the encoders are
parameters.

Main definitions:

* `Capture.Pipeline` — conversions and encoders;
* `Capture.VideoCaptureSource`, with `takePicture` for one turn of the loop in `next_frame`;
* `Capture.Run`, `Capture.step` — calls of `next_frame`, with all frames that they return;
* `Capture.OneTimestamp` — frames of one call of the encoder carry one timestamp.

Main results:

* `Capture.nonDecreasing_exec` — timestamps never decrease;
* `Capture.oneTimestamp_iff` — **one access unit has one timestamp exactly when the clock does not
  advance until all of it has been returned**.
-/

import MibeeEye.RtmpOutput
import MibeeEye.StepMachine

set_option relaxedAutoImplicit false
set_option autoImplicit false

namespace Capture

open Machine Rtmp

/-! ### The source -/

/-- `NalUnit` of the encoder. -/
structure NalUnit where
  data : List UInt8
  isKeyframe : Bool
  deriving DecidableEq, Repr

/-- What happens to a camera frame: `V` are camera frames, `P` planar pictures, `E` encoders. -/
structure Pipeline (V P E : Type) where
  /-- The encoder for the size of the first frame. -/
  newEncoder : V → Except String E
  /-- The encoder of the substream, and the number of pictures for each that it encodes. -/
  newSubEncoder : Option (E × ℕ)
  /-- Conversion, rotation, flips and watermark. -/
  toYuv : V → Except String P
  downscaled : P → P
  /-- The bytes of the camera, if they may be passed through. -/
  mjpegPassthrough : V → Option (List UInt8)
  jpegEncodeYuv : P → Option (List UInt8)
  forceKeyframe : E → E
  encode : E → P → ℕ → Except String (List NalUnit) × E

/-- `JPEG_REENCODE_EVERY_N_FRAMES`. -/
def jpegReencodeEveryNFrames : ℕ := 6

/-- `VideoCaptureSource`, as far as `next_frame` uses it after `start`. -/
structure VideoCaptureSource (E : Type) where
  encoder : Option E := none
  pendingNals : List NalUnit := []
  substream : Bool
  subEncoder : Option E := none
  subFrameDiv : ℕ := 1
  subFrameCount : UInt32 := 0
  frameCount : ℕ := 0
  forceIdr : Bool := false
  latestJpeg : Option (List UInt8) := none

/-- A camera frame, with the clock as it is read for the substream and for the encoder. -/
structure Picture (V : Type) where
  frame : V
  subClock : ℕ
  clock : ℕ

/-- The frame for a NAL unit. -/
def NalUnit.toFrame (nal : NalUnit) (timestamp : ℕ) : MediaFrame :=
  .video nal.isKeyframe nal.data timestamp

/-- The timestamp of a frame. -/
def timestampOf : MediaFrame → ℕ
  | .video _ _ timestamp => timestamp
  | .audio _ timestamp => timestamp

@[simp] theorem timestampOf_toFrame (nal : NalUnit) (timestamp : ℕ) :
    timestampOf (nal.toFrame timestamp) = timestamp := rfl

section Source

variable {V P E : Type} (pipe : Pipeline V P E)

namespace VideoCaptureSource

/-- The encoder, made on the first frame; a request for a keyframe is passed on to it. -/
def prepareEncoder (s : VideoCaptureSource E) (frame : V) :
    Except String (VideoCaptureSource E × E) :=
  match s.encoder with
  | some e =>
      let e := if s.forceIdr then pipe.forceKeyframe e else e
      .ok ({ s with encoder := some e, forceIdr := false }, e)
  | none =>
      match pipe.newEncoder frame with
      | .error e => .error s!"encoder init failed: {e}"
      | .ok e =>
          let e := if s.forceIdr then pipe.forceKeyframe e else e
          .ok ({ s with encoder := some e, forceIdr := false }, e)

/-- The encoder of the substream, made on the first picture; if that fails there is no substream. -/
def prepareSub (s : VideoCaptureSource E) : VideoCaptureSource E :=
  match s.subEncoder, pipe.newSubEncoder with
  | some _, _ => s
  | none, some (e, div) => { s with subEncoder := some e, subFrameDiv := div }
  | none, none => { s with substream := false }

/-- A picture of the substream: all its NAL units carry the clock of the picture. -/
def runSub (s : VideoCaptureSource E) (yuv : P) (clock : ℕ) :
    VideoCaptureSource E × List MediaFrame :=
  match s.subEncoder with
  | none => (s, [])
  | some e =>
      let count := s.subFrameCount + 1
      if s.subFrameDiv ≤ 1 ∨ count.toNat % s.subFrameDiv = 0 then
        match pipe.encode e (pipe.downscaled yuv) clock with
        | (.ok nals, e) =>
            ({ s with subFrameCount := count, subEncoder := some e }, nals.map (·.toFrame clock))
        | (.error _, e) => ({ s with subFrameCount := count, subEncoder := some e }, [])
      else ({ s with subFrameCount := count }, [])

/-- The substream. -/
def encodeSub (s : VideoCaptureSource E) (yuv : P) (clock : ℕ) :
    VideoCaptureSource E × List MediaFrame :=
  if s.substream then (s.prepareSub pipe).runSub pipe yuv clock else (s, [])

/-- The picture for the web page. -/
def updateJpeg (s : VideoCaptureSource E) (frame : V) (yuv : P) : VideoCaptureSource E :=
  let s := { s with frameCount := s.frameCount + 1 }
  let jpeg := match pipe.mjpegPassthrough frame with
    | some bytes => some bytes
    | none => if s.frameCount % jpegReencodeEveryNFrames = 0 then pipe.jpegEncodeYuv yuv else none
  { s with latestJpeg := jpeg <|> s.latestJpeg }

end VideoCaptureSource

/-- What comes of a picture. -/
structure Taken (E : Type) where
  source : VideoCaptureSource E
  /-- The frames of the substream. -/
  sub : List MediaFrame := []
  /-- What the encoder gives, if it gets to encode the picture. -/
  result : Except String (List NalUnit)

/-- One turn of the loop in `next_frame`, up to the call of the encoder.  When the encoder cannot be
made, or the picture not be converted, the call of `next_frame` fails. -/
def VideoCaptureSource.takePicture (s : VideoCaptureSource E) (p : Picture V) : Taken E :=
  match s.prepareEncoder pipe p.frame with
  | .error e => { source := s, result := .error e }
  | .ok (s, e) =>
      match pipe.toYuv p.frame with
      | .error e => { source := s, result := .error e }
      | .ok yuv =>
          let sub := s.encodeSub pipe yuv p.subClock
          let s := sub.1.updateJpeg pipe p.frame yuv
          let out := pipe.encode e yuv p.clock
          { source := { s with encoder := some out.2 }
            sub := sub.2
            result := out.1.mapError fun e => s!"H.264 encode failed: {e}" }

/-! ### Calls of `next_frame` -/

/-- A source, with everything it has returned: each frame with the number of the picture it belongs
to. -/
structure Run (E : Type) where
  source : VideoCaptureSource E
  /-- A call of `next_frame` is waiting for the camera. -/
  waiting : Bool := false
  /-- How many pictures have been taken. -/
  pictures : ℕ := 0
  /-- The clock for the last of them. -/
  clock : ℕ := 0
  emitted : List (ℕ × MediaFrame) := []
  subEmitted : List (ℕ × MediaFrame) := []

/-- What can happen. -/
inductive Event (V : Type)
  /-- `next_frame` is called, and there is a NAL unit left over. -/
  | drain (now : ℕ)
  /-- `next_frame` is called, and there is none. -/
  | await
  /-- The call that is waiting gets a picture. -/
  | camera (p : Picture V)
  /-- The call that is waiting finds the camera gone, and fails. -/
  | closed
  /-- A keyframe is requested. -/
  | iframeCmd

/-- A picture is taken: the call fails, goes on waiting because there is no NAL unit, or returns the
first. -/
def Run.take (r : Run E) (p : Picture V) : Run E :=
  let taken := r.source.takePicture pipe p
  let r := { r with
    pictures := r.pictures + 1
    clock := p.clock
    subEmitted := r.subEmitted ++ taken.sub.map (r.pictures + 1, ·) }
  match taken.result with
  | .error _ => { r with source := taken.source, waiting := false }
  | .ok nals =>
      match taken.source.pendingNals ++ nals with
      | [] => { r with source := taken.source }
      | first :: pendingNals =>
          { r with
            source := { taken.source with pendingNals := pendingNals }
            waiting := false
            emitted := r.emitted ++ [(r.pictures, first.toFrame p.clock)] }

/-- **One step.** -/
@[grind =] def step (r : Run E) : Event V → Option (Run E)
  | .drain now =>
      match r.waiting, r.source.pendingNals with
      | false, nal :: nals =>
          some { r with
            source := { r.source with pendingNals := nals }
            emitted := r.emitted ++ [(r.pictures, nal.toFrame now)] }
      | _, _ => none
  | .await =>
      match r.waiting, r.source.pendingNals with
      | false, [] => some { r with waiting := true }
      | _, _ => none
  | .camera p => if r.waiting then some (r.take pipe p) else none
  | .closed => if r.waiting then some { r with waiting := false } else none
  | .iframeCmd => some { r with source := { r.source with forceIdr := true } }

/-- The clock as it is read for an event. -/
def readings : Event V → List ℕ
  | .drain now => [now]
  | .camera p => [p.subClock, p.clock]
  | .await | .closed | .iframeCmd => []

/-- A source that has been started. -/
def Run.new (substream : Bool) : Run E := { source := { substream } }

end Source

/-- Frames of one picture carry one timestamp. -/
def OneTimestamp (emitted : List (ℕ × MediaFrame)) : Prop :=
  ∀ p ∈ emitted, ∀ q ∈ emitted, p.1 = q.1 → timestampOf p.2 = timestampOf q.2

/-- A frame may follow that agrees with those of its picture. -/
theorem OneTimestamp.append {emitted new : List (ℕ × MediaFrame)} {n t : ℕ} (h : OneTimestamp emitted)
    (hnew : ∀ p ∈ new, p.1 = n ∧ timestampOf p.2 = t)
    (hold : ∀ p ∈ emitted, p.1 = n → timestampOf p.2 = t) : OneTimestamp (emitted ++ new) := by
  intro p hp q hq hpq
  rcases List.mem_append.1 hp with hp | hp <;> rcases List.mem_append.1 hq with hq | hq
  · exact h p hp q hq hpq
  · obtain ⟨hqn, hqt⟩ := hnew q hq
    rw [hold p hp (hpq.trans hqn), hqt]
  · obtain ⟨hpn, hpt⟩ := hnew p hp
    rw [hold q hq (hpq.symm.trans hpn), hpt]
  · rw [(hnew p hp).2, (hnew q hq).2]

section Runs

variable {V P E : Type} {pipe : Pipeline V P E}

/-! ### What a picture does -/

theorem prepareEncoder_pendingNals {s s' : VideoCaptureSource E} {frame : V} {e : E}
    (h : s.prepareEncoder pipe frame = .ok (s', e)) : s'.pendingNals = s.pendingNals := by
  unfold VideoCaptureSource.prepareEncoder at h
  split at h
  · cases h
    rfl
  · split at h
    · cases h
    · cases h
      rfl

theorem prepareSub_pendingNals (pipe : Pipeline V P E) (s : VideoCaptureSource E) :
    (s.prepareSub pipe).pendingNals = s.pendingNals := by
  unfold VideoCaptureSource.prepareSub
  split <;> rfl

theorem runSub_spec (pipe : Pipeline V P E) (s : VideoCaptureSource E) (yuv : P) (clock : ℕ) :
    (s.runSub pipe yuv clock).1.pendingNals = s.pendingNals ∧
      ∀ f ∈ (s.runSub pipe yuv clock).2, timestampOf f = clock := by
  unfold VideoCaptureSource.runSub
  split
  · exact ⟨rfl, by simp⟩
  · dsimp only
    split
    · split
      · exact ⟨rfl, by simp⟩
      · exact ⟨rfl, by simp⟩
    · exact ⟨rfl, by simp⟩

/-- The substream leaves the queue alone, and stamps its frames with its clock. -/
theorem encodeSub_spec (pipe : Pipeline V P E) (s : VideoCaptureSource E) (yuv : P) (clock : ℕ) :
    (s.encodeSub pipe yuv clock).1.pendingNals = s.pendingNals ∧
      ∀ f ∈ (s.encodeSub pipe yuv clock).2, timestampOf f = clock := by
  unfold VideoCaptureSource.encodeSub
  split
  · obtain ⟨hpending, hclock⟩ := runSub_spec pipe (s.prepareSub pipe) yuv clock
    exact ⟨hpending.trans (prepareSub_pendingNals pipe s), hclock⟩
  · exact ⟨rfl, by simp⟩

/-- **What a picture does before its NAL units are queued.** -/
theorem takePicture_spec (pipe : Pipeline V P E) (s : VideoCaptureSource E) (p : Picture V) :
    (s.takePicture pipe p).source.pendingNals = s.pendingNals ∧
      ∀ f ∈ (s.takePicture pipe p).sub, timestampOf f = p.subClock := by
  unfold VideoCaptureSource.takePicture
  split
  · exact ⟨rfl, by simp⟩
  · rename_i s' e hprepare
    have hpending := prepareEncoder_pendingNals hprepare
    split
    · exact ⟨hpending, by simp⟩
    · rename_i yuv hyuv
      obtain ⟨hsub, hclock⟩ := encodeSub_spec pipe s' yuv p.subClock
      exact ⟨hsub.trans hpending, hclock⟩

/-- What has been returned after a picture: nothing new, or its first NAL unit. -/
theorem take_cases (pipe : Pipeline V P E) {r : Run E} (hpending : r.source.pendingNals = [])
    (p : Picture V) :
    (r.take pipe p).pictures = r.pictures + 1 ∧ (r.take pipe p).clock = p.clock ∧
    (∃ sub, (r.take pipe p).subEmitted = r.subEmitted ++ sub ∧
      ∀ q ∈ sub, q.1 = r.pictures + 1 ∧ timestampOf q.2 = p.subClock) ∧
    ((r.take pipe p).emitted = r.emitted ∧ (r.take pipe p).source.pendingNals = [] ∨
      ∃ f, (r.take pipe p).emitted = r.emitted ++ [(r.pictures + 1, f)] ∧
        timestampOf f = p.clock ∧ (r.take pipe p).waiting = false) := by
  obtain ⟨hsame, hsub⟩ := takePicture_spec pipe r.source p
  rw [hpending] at hsame
  have htagged : ∀ q ∈ (r.source.takePicture pipe p).sub.map (r.pictures + 1, ·),
      q.1 = r.pictures + 1 ∧ timestampOf q.2 = p.subClock := by
    intro q hq
    obtain ⟨f, hf, rfl⟩ := List.mem_map.1 hq
    exact ⟨rfl, hsub f hf⟩
  unfold Run.take
  dsimp only
  split
  · exact ⟨rfl, rfl, ⟨_, rfl, htagged⟩, Or.inl ⟨rfl, hsame⟩⟩
  · split
    · exact ⟨rfl, rfl, ⟨_, rfl, htagged⟩, Or.inl ⟨rfl, hsame⟩⟩
    · exact ⟨rfl, rfl, ⟨_, rfl, htagged⟩, Or.inr ⟨_, rfl, rfl, rfl⟩⟩

/-! ### What holds in every run -/

/-- What is left over belongs to the last picture, whose first NAL unit carries its clock. -/
structure Paced (r : Run E) : Prop where
  idle : r.waiting = true → r.source.pendingNals = []
  first : r.source.pendingNals ≠ [] → ∃ f, (r.pictures, f) ∈ r.emitted ∧ timestampOf f = r.clock
  bounded : ∀ q ∈ r.emitted, q.1 ≤ r.pictures
  sub : OneTimestamp r.subEmitted
  subBounded : ∀ q ∈ r.subEmitted, q.1 ≤ r.pictures

theorem paced_take (pipe : Pipeline V P E) {r : Run E} (hr : Paced r) (hwaiting : r.waiting = true)
    (p : Picture V) : Paced (r.take pipe p) := by
  obtain ⟨hpictures, hclock, ⟨sub, hsub, htagged⟩, hemitted⟩ :=
    take_cases pipe (hr.idle hwaiting) p
  have hsubOld : ∀ q ∈ r.subEmitted, q.1 = r.pictures + 1 → timestampOf q.2 = p.subClock := by
    intro q hq htag
    have := hr.subBounded q hq
    omega
  refine ⟨?_, ?_, ?_, ?_, ?_⟩
  · intro hw
    rcases hemitted with ⟨-, hpending⟩ | ⟨f, -, -, hdone⟩
    · exact hpending
    · rw [hdone] at hw
      cases hw
  · intro hne
    rcases hemitted with ⟨-, hpending⟩ | ⟨f, hemitted, htimestamp, -⟩
    · exact absurd hpending hne
    · refine ⟨f, ?_, htimestamp.trans hclock.symm⟩
      rw [hemitted, hpictures]
      simp
  · intro q hq
    rw [hpictures]
    rcases hemitted with ⟨hsame, -⟩ | ⟨f, hemitted, -, -⟩
    · rw [hsame] at hq
      have := hr.bounded q hq
      omega
    · rw [hemitted] at hq
      rcases List.mem_append.1 hq with hq | hq
      · have := hr.bounded q hq
        omega
      · rw [List.mem_singleton.1 hq]
  · rw [hsub]
    exact hr.sub.append htagged hsubOld
  · intro q hq
    rw [hsub] at hq
    rw [hpictures]
    rcases List.mem_append.1 hq with hq | hq
    · have := hr.subBounded q hq
      omega
    · rw [(htagged q hq).1]

/-- **The steps of a source.** -/
theorem step_cases {r r' : Run E} {e : Event V} (h : step pipe r e = some r') :
    (∃ now nal nals, e = .drain now ∧ r.waiting = false ∧ r.source.pendingNals = nal :: nals ∧
      r' = { r with
        source := { r.source with pendingNals := nals }
        emitted := r.emitted ++ [(r.pictures, nal.toFrame now)] }) ∨
    (∃ p, e = .camera p ∧ r.waiting = true ∧ r' = r.take pipe p) ∨
    (readings e = [] ∧ (∀ now, e ≠ .drain now) ∧
      (r'.waiting = true → r.waiting = true ∨ r.source.pendingNals = []) ∧
      r'.source.pendingNals = r.source.pendingNals ∧ r'.pictures = r.pictures ∧
      r'.clock = r.clock ∧ r'.emitted = r.emitted ∧ r'.subEmitted = r.subEmitted) := by
  cases e with
  | drain now =>
      simp only [step] at h
      split at h
      · rename_i nal nals hwaiting hpending
        cases h
        exact Or.inl ⟨now, nal, nals, rfl, hwaiting, hpending, rfl⟩
      · cases h
  | await =>
      simp only [step] at h
      split at h
      · rename_i hwaiting hpending
        cases h
        exact Or.inr (Or.inr ⟨rfl, by simp, fun _ => Or.inr hpending, rfl, rfl, rfl, rfl, rfl⟩)
      · cases h
  | camera p =>
      simp only [step] at h
      split at h
      · rename_i hwaiting
        cases h
        exact Or.inr (Or.inl ⟨p, rfl, hwaiting, rfl⟩)
      · cases h
  | closed =>
      simp only [step] at h
      split at h
      · cases h
        exact Or.inr (Or.inr ⟨rfl, by simp, by simp, rfl, rfl, rfl, rfl, rfl⟩)
      · cases h
  | iframeCmd =>
      cases h
      exact Or.inr (Or.inr ⟨rfl, by simp, Or.inl, rfl, rfl, rfl, rfl, rfl⟩)

theorem paced_step {r r' : Run E} {e : Event V} (hr : Paced r) (h : step pipe r e = some r') :
    Paced r' := by
  rcases step_cases h with ⟨now, nal, nals, rfl, hwaiting, hpending, rfl⟩ |
    ⟨p, rfl, hwaiting, rfl⟩ | ⟨-, -, hidle, hpending, hpictures, hclock, hemitted, hsub⟩
  · refine ⟨?_, ?_, ?_, hr.sub, hr.subBounded⟩
    · intro hw
      rw [hwaiting] at hw
      cases hw
    · intro _
      obtain ⟨f, hf, htimestamp⟩ := hr.first (by rw [hpending]; exact List.cons_ne_nil _ _)
      exact ⟨f, List.mem_append_left _ hf, htimestamp⟩
    · intro q hq
      rcases List.mem_append.1 hq with hq | hq
      · exact hr.bounded q hq
      · rw [List.mem_singleton.1 hq]
  · exact paced_take pipe hr hwaiting p
  · refine ⟨?_, ?_, ?_, ?_, ?_⟩
    · intro hw
      rw [hpending]
      rcases hidle hw with hwaiting | hnil
      · exact hr.idle hwaiting
      · exact hnil
    · rw [hpending, hpictures, hclock, hemitted]
      exact hr.first
    · rw [hpictures, hemitted]
      exact hr.bounded
    · rw [hsub]
      exact hr.sub
    · rw [hsub, hpictures]
      exact hr.subBounded

theorem paced_new (substream : Bool) : Paced (Run.new substream : Run E) := by
  refine ⟨?_, ?_, ?_, ?_, ?_⟩ <;> simp [Run.new, OneTimestamp]

/-! ### The timestamps of a picture -/

/-- All frames of a picture carry one timestamp, those of the last picture its clock. -/
def Stamped (r : Run E) : Prop :=
  OneTimestamp r.emitted ∧ ∀ q ∈ r.emitted, q.1 = r.pictures → timestampOf q.2 = r.clock

/-- A step keeps this if a NAL unit that is left over is returned at the clock of its picture. -/
theorem stamped_step {r r' : Run E} {e : Event V} (hpaced : Paced r) (hr : Stamped r)
    (hdrain : ∀ now, e = .drain now → now = r.clock) (h : step pipe r e = some r') :
    Stamped r' := by
  rcases step_cases h with ⟨now, nal, nals, rfl, -, -, rfl⟩ | ⟨p, rfl, hwaiting, rfl⟩ |
    ⟨-, -, -, -, hpictures, hclock, hemitted, -⟩
  · obtain rfl := hdrain now rfl
    have hnew : ∀ q ∈ [(r.pictures, nal.toFrame r.clock)],
        q.1 = r.pictures ∧ timestampOf q.2 = r.clock := by
      simp
    refine ⟨hr.1.append hnew hr.2, ?_⟩
    intro q hq htag
    rcases List.mem_append.1 hq with hq | hq
    · exact hr.2 q hq htag
    · exact (hnew q hq).2
  · obtain ⟨hpictures, hclock, -, hemitted⟩ := take_cases pipe (hpaced.idle hwaiting) p
    have hold : ∀ q ∈ r.emitted, q.1 = r.pictures + 1 → timestampOf q.2 = p.clock := by
      intro q hq htag
      have := hpaced.bounded q hq
      omega
    rw [Stamped, hpictures, hclock]
    rcases hemitted with ⟨hsame, -⟩ | ⟨f, hemitted, htimestamp, -⟩
    · rw [hsame]
      exact ⟨hr.1, hold⟩
    · have hnew : ∀ q ∈ [(r.pictures + 1, f)],
          q.1 = r.pictures + 1 ∧ timestampOf q.2 = p.clock := by
        simp [htimestamp]
      rw [hemitted]
      refine ⟨hr.1.append hnew hold, ?_⟩
      intro q hq htag
      rcases List.mem_append.1 hq with hq | hq
      · exact hold q hq htag
      · exact (hnew q hq).2
  · rw [Stamped, hpictures, hclock, hemitted]
    exact hr

/-- What has been returned stays. -/
theorem emitted_grows {es : List (Event V)} :
    ∀ {r r' : Run E}, Paced r → exec (step pipe) r es = some r' → r.emitted <+: r'.emitted := by
  induction es with
  | nil =>
      intro r r' _ h
      cases h
      exact List.prefix_refl _
  | cons e es ih =>
      intro r r' hr h
      rw [exec_cons] at h
      obtain ⟨u, hu, h⟩ := Option.bind_eq_some_iff.1 h
      refine List.IsPrefix.trans ?_ (ih (paced_step hr hu) h)
      rcases step_cases hu with ⟨now, nal, nals, -, -, -, rfl⟩ | ⟨p, -, hwaiting, rfl⟩ |
        ⟨-, -, -, -, -, -, hemitted, -⟩
      · exact List.prefix_append _ _
      · obtain ⟨-, -, -, ⟨hsame, -⟩ | ⟨f, hemitted, -, -⟩⟩ :=
          take_cases pipe (hr.idle hwaiting) p
        · exact ⟨[], by rw [List.append_nil, hsame]⟩
        · rw [hemitted]
          exact List.prefix_append _ _
      · exact ⟨[], by rw [List.append_nil, hemitted]⟩

/-- Timestamps never decrease. -/
def NonDecreasing (emitted : List (ℕ × MediaFrame)) : Prop :=
  (emitted.map fun q => timestampOf q.2).Pairwise (· ≤ ·)

theorem NonDecreasing.append {emitted : List (ℕ × MediaFrame)} {last t n : ℕ} {f : MediaFrame}
    (h : NonDecreasing emitted) (hlast : ∀ q ∈ emitted, timestampOf q.2 ≤ last) (ht : last ≤ t)
    (hf : timestampOf f = t) : NonDecreasing (emitted ++ [(n, f)]) := by
  rw [NonDecreasing, List.map_append, List.pairwise_append]
  refine ⟨h, by simp, ?_⟩
  intro a ha b hb
  obtain ⟨q, hq, rfl⟩ := List.mem_map.1 ha
  have hle := hlast q hq
  simp only [List.map_cons, List.map_nil, List.mem_singleton] at hb
  omega

/-- **Timestamps never decrease**, if the clock does not. -/
theorem nonDecreasing_exec {es : List (Event V)} :
    ∀ {r r' : Run E} (last : ℕ), Paced r → NonDecreasing r.emitted →
      (∀ q ∈ r.emitted, timestampOf q.2 ≤ last) →
      (last :: es.flatMap readings).Pairwise (· ≤ ·) → exec (step pipe) r es = some r' →
      NonDecreasing r'.emitted := by
  induction es with
  | nil =>
      intro r r' last _ hmono _ _ h
      cases h
      exact hmono
  | cons e es ih =>
      intro r r' last hr hmono hlast hclock h
      rw [exec_cons] at h
      obtain ⟨u, hu, h⟩ := Option.bind_eq_some_iff.1 h
      have hpaced := paced_step hr hu
      have happend : ∀ {n : ℕ} {f : MediaFrame} {t : ℕ}, timestampOf f = t → last ≤ t →
          ∀ q ∈ r.emitted ++ [(n, f)], timestampOf q.2 ≤ t := by
        intro n f t hf ht q hq
        rcases List.mem_append.1 hq with hq | hq
        · exact (hlast q hq).trans ht
        · rw [List.mem_singleton.1 hq]
          exact hf.le
      rcases step_cases hu with ⟨now, nal, nals, rfl, -, -, rfl⟩ | ⟨p, rfl, hwaiting, rfl⟩ |
        ⟨hnone, -, -, -, -, -, hemitted, -⟩
      · simp only [List.flatMap_cons, readings, List.cons_append, List.nil_append] at hclock
        obtain ⟨hle, htail⟩ := List.pairwise_cons.1 hclock
        have hnow : last ≤ now := hle now List.mem_cons_self
        exact ih now hpaced (hmono.append hlast hnow rfl) (happend rfl hnow) htail h
      · simp only [List.flatMap_cons, readings, List.cons_append, List.nil_append] at hclock
        obtain ⟨hle, htail⟩ := List.pairwise_cons.1 hclock
        have hp : last ≤ p.clock := hle p.clock (by simp)
        have htail' := (List.pairwise_cons.1 htail).2
        obtain ⟨-, -, -, ⟨hsame, -⟩ | ⟨f, hemitted, htimestamp, -⟩⟩ :=
          take_cases pipe (hr.idle hwaiting) p
        · refine ih p.clock hpaced (by rw [hsame]; exact hmono) ?_ htail' h
          intro q hq
          rw [hsame] at hq
          exact (hlast q hq).trans hp
        · refine ih p.clock hpaced ?_ ?_ htail' h
          · rw [hemitted]
            exact hmono.append hlast hp htimestamp
          · rw [hemitted]
            exact happend htimestamp hp
      · rw [List.flatMap_cons, hnone, List.nil_append] at hclock
        refine ih last hpaced ?_ ?_ hclock h
        · rw [hemitted]
          exact hmono
        · rw [hemitted]
          exact hlast

/-- **One access unit has one timestamp, and timestamps never decrease, exactly when every NAL unit
that is left over is returned while the clock shows what it showed for its picture.** -/
theorem oneTimestamp_iff (pipe : Pipeline V P E) (substream : Bool) (es : List (Event V))
    (r : Run E) (hexec : exec (step pipe) (Run.new substream) es = some r)
    (hclock : (es.flatMap readings).Pairwise (· ≤ ·)) :
    (OneTimestamp r.emitted ∧ OneTimestamp r.subEmitted ∧ NonDecreasing r.emitted) ↔
      ∀ u now, Occurs (step pipe) (Run.new substream) es u (.drain now) → now = u.clock := by
  have hpaced : ∀ u, Passes (step pipe) (Run.new substream) es u → Paced u := fun u hu =>
    passes_invariant (P := fun _ => True) (fun s a t _ => paced_step) (fun _ _ => trivial)
      (paced_new substream) hu
  have hend : Passes (step pipe) (Run.new substream) es r := ⟨es, List.prefix_refl _, hexec⟩
  constructor
  · rintro ⟨hone, -, -⟩ u now hoccurs
    have hu := hpaced u hoccurs.passes_before
    obtain ⟨pre, ⟨post, hsplit⟩, hpre⟩ := hoccurs
    rw [← hsplit, List.append_assoc, exec_append, hpre, Option.bind_some, List.singleton_append,
      exec_cons] at hexec
    obtain ⟨v, hv, hpost⟩ := Option.bind_eq_some_iff.1 hexec
    rcases step_cases hv with ⟨now', nal, nals, hnow, -, hpending, rfl⟩ | ⟨p, hp, -, -⟩ |
      ⟨-, hnot, -⟩
    · -- the first NAL unit of the picture and the one that is left over are both in the result
      cases hnow
      obtain ⟨f, hf, htimestamp⟩ := hu.first (by rw [hpending]; exact List.cons_ne_nil _ _)
      have hmem : ∀ q ∈ u.emitted ++ [(u.pictures, nal.toFrame now)], q ∈ r.emitted := fun q hq =>
        (emitted_grows (paced_step hu hv) hpost).subset hq
      have heq := hone _ (hmem _ (List.mem_append_right _ (List.mem_singleton.2 rfl))) _
        (hmem _ (List.mem_append_left _ hf)) rfl
      exact heq.trans htimestamp
    · cases hp
    · exact absurd rfl (hnot now)
  · intro hdrain
    refine ⟨?_, (hpaced r hend).sub, ?_⟩
    · have hstamped : Paced r ∧ Stamped r := by
        refine passes_induction (I := fun u => Paced u ∧ Stamped u) ?_ ⟨paced_new substream, ?_⟩ hend
        · intro u e v hoccurs hu hv
          refine ⟨paced_step hu.1 hv, stamped_step hu.1 hu.2 ?_ hv⟩
          rintro now rfl
          exact hdrain u now hoccurs
        · simp [Stamped, OneTimestamp, Run.new]
      exact hstamped.2.1
    · refine nonDecreasing_exec 0 (paced_new substream) ?_ ?_ ?_ hexec
      · simp [NonDecreasing, Run.new]
      · simp [Run.new]
      · exact List.pairwise_cons.2 ⟨fun a _ => Nat.zero_le a, hclock⟩

end Runs

/-! ### A keyframe of three NAL units -/

/-- An encoder that gives an SPS, a PPS and a slice for every picture. -/
def keyframePipeline : Pipeline Unit Unit Unit where
  newEncoder := fun _ => .ok ()
  newSubEncoder := none
  toYuv := fun _ => .ok ()
  downscaled := id
  mjpegPassthrough := fun _ => none
  jpegEncodeYuv := fun _ => none
  forceKeyframe := id
  encode := fun _ _ _ => (.ok [⟨[0x67], true⟩, ⟨[0x68], true⟩, ⟨[0x65], true⟩], ())

/-- A picture at 40 ms, whose last two NAL units are returned at a later time. -/
def keyframeAt (later : ℕ) : List (Event Unit) :=
  [.await, .camera ⟨(), 40, 40⟩, .drain later, .drain later]

/-- The frames of the picture. -/
def keyframeEmitted (later : ℕ) : List (ℕ × MediaFrame) :=
  [(1, .video true [0x67] 40), (1, .video true [0x68] later), (1, .video true [0x65] later)]

theorem exec_keyframeAt (later : ℕ) :
    ∃ r, exec (step keyframePipeline) (Run.new false) (keyframeAt later) = some r ∧
      r.emitted = keyframeEmitted later :=
  ⟨_, rfl, rfl⟩

/-- Returned within the same millisecond they carry one timestamp. -/
theorem oneTimestamp_keyframeAt :
    ∃ r, exec (step keyframePipeline) (Run.new false) (keyframeAt 40) = some r ∧
      OneTimestamp r.emitted ∧ r.emitted.length = 3 := by
  obtain ⟨r, hexec, hemitted⟩ := exec_keyframeAt 40
  refine ⟨r, hexec, ((oneTimestamp_iff keyframePipeline false (keyframeAt 40) r hexec
    (by decide)).2 ?_).1, by rw [hemitted]; rfl⟩
  intro u now hoccurs
  obtain ⟨i, hi, hu⟩ := hoccurs.exists_getElem
  match i with
  | 0 => cases hi
  | 1 => cases hi
  | 2 =>
      cases hi
      cases hu
      rfl
  | 3 =>
      cases hi
      cases hu
      rfl
  | i + 4 => cases hi

/-- Returned five milliseconds later they do not. -/
theorem not_oneTimestamp_keyframeAt :
    ((keyframeAt 45).flatMap readings).Pairwise (· ≤ ·) ∧
      ∃ r, exec (step keyframePipeline) (Run.new false) (keyframeAt 45) = some r ∧
        ¬ OneTimestamp r.emitted := by
  refine ⟨by decide, ?_⟩
  obtain ⟨r, hexec, hemitted⟩ := exec_keyframeAt 45
  refine ⟨r, hexec, ?_⟩
  intro hone
  rw [hemitted] at hone
  have heq := hone (1, .video true [0x67] 40) (by simp [keyframeEmitted])
    (1, .video true [0x68] 45) (by simp [keyframeEmitted]) rfl
  cases heq

end Capture

/-
**What is sent into the RTSP mounts of a stream.**

`StreamManager::create_stream` in `crates/web/src/stream_manager.rs` registers up to two mounts for a
camera: `live/{id}`, and `live/{id}/sub` when the camera has a substream.  What is sent into the
channel of a mount is written to its clients as the payload of interleaved RTP frames.  Into the
main mount an `RtspOutput` sends RTP packets.  Into the substream's mount a task of its own forwards
the frames of the substream's encoder as they are: NAL units, not packets.

The tasks run concurrently, so the model is a step machine over what they receive.  Frames that a
receiver has missed because it lagged behind are frames it does not receive.

Main definitions:

* `StreamManager.CameraConfig`, `StreamManager.Mounts` — a camera, and its mounts with what has been
  sent into them;
* `StreamManager.MountEvent`, `StreamManager.mountStep` — what the tasks do;
* `StreamManager.CarriesRtp` — everything sent is an RTP packet of its mount.

Main results:

* `RtspServer.RtspOutput.sendFrame_parses` — an `RtspOutput` sends RTP packets, whatever the frames
  are;
* `StreamManager.not_parses_nal` — a NAL unit is no RTP packet;
* `StreamManager.carriesRtp_iff` — **everything sent is an RTP packet exactly when the substream's
  task forwards nothing**.
-/

import MibeeEye.RtspPacketisation
import MibeeEye.StepMachine

set_option relaxedAutoImplicit false
set_option autoImplicit false

namespace RtspServer

open Wire Rtmp Rtp

/-! ### Packets of any NAL unit -/

/-- An RTP packet of version 2 with the given source. -/
def ParsesAs (ssrc : UInt32) (bytes : List UInt8) : Prop :=
  ∃ p, RtpPacket.parse bytes = .ok p ∧ p.flags.version = 2 ∧ p.ssrc = ssrc

/-- The packets of any bytes are RTP packets. -/
theorem parsesAs_of_mem_buildRtpPackets {nal : List UInt8} {seq : UInt16} {timestamp ssrc : UInt32}
    {b : List UInt8} (h : b ∈ (buildRtpPackets nal seq timestamp ssrc).1) : ParsesAs ssrc b := by
  cases nal with
  | nil => cases h
  | cons nalHeader body =>
      rw [buildRtpPackets] at h
      split at h
      · rw [List.mem_singleton.1 h]
        exact ⟨_, parse_rtpPacket _ _ _ _ _, rfl, rfl⟩
      · have hparse := List.mem_map_of_mem (f := RtpPacket.parse) h
        rw [parse_buildFragments] at hparse
        obtain ⟨p, hp, hok⟩ := List.mem_map.1 hparse
        exact ⟨p, hok.symm, source_parsedFragments _ _ _ _ _ _ _ _ p hp⟩

namespace RtspOutput

theorem parsesAs_of_mem_parameterSet {nal : Option (List UInt8)} {seq : UInt16}
    {timestamp ssrc : UInt32} {b : List UInt8}
    (h : b ∈ (parameterSetPackets nal seq timestamp ssrc).1) : ParsesAs ssrc b := by
  cases nal with
  | none => cases h
  | some n => exact parsesAs_of_mem_buildRtpPackets h

/-- **An output sends RTP packets of its source**, whatever the frame is, and keeps the source. -/
theorem sendFrame_parses {o o' : RtspOutput} {frame : MediaFrame} {pushed : Pushed}
    (h : o.sendFrame frame = .ok (o', pushed)) :
    o'.ssrc = o.ssrc ∧ o'.started = o.started ∧
      ∀ b ∈ pushed.parameterSets ++ pushed.packets, ParsesAs o.ssrc b := by
  cases frame with
  | audio data timestamp =>
      cases h
      refine ⟨rfl, rfl, ?_⟩
      intro b hb
      cases hb
  | video keyframe data timestamp =>
      rw [sendFrame] at h
      split at h
      · split at h
        · obtain ⟨-, -, hssrc, -, hstarted, -⟩ := o.cacheParameterSets_spec data
          obtain ⟨rfl, rfl⟩ := Prod.mk.inj (Except.ok.inj h)
          refine ⟨hssrc, hstarted, ?_⟩
          rw [← hssrc]
          intro b hb
          rcases List.mem_append.1 hb with hb | hb
          · rcases List.mem_append.1 hb with hb | hb
            · exact parsesAs_of_mem_parameterSet hb
            · exact parsesAs_of_mem_parameterSet hb
          · exact parsesAs_of_mem_buildRtpPackets hb
        · cases h
      · cases h

end RtspOutput

end RtspServer

namespace StreamManager

open Wire Rtmp Rtp RtspServer Machine

/-! ### The mounts of a stream -/

/-- `SDP_BODY`. -/
def sdpBody : String :=
  "v=0\r\no=- 0 0 IN IP4 0.0.0.0\r\ns=mibee-eye\r\nc=IN IP4 0.0.0.0\r\nt=0 0\r\n" ++
    "m=video 0 RTP/AVP 96\r\na=rtpmap:96 H264/90000\r\na=fmtp:96 packetization-mode=1\r\n" ++
    "a=control:track1\r\n"

/-- What `create_stream` is given, as far as the mounts depend on it: whether there is an RTSP
server, whether the substream is enabled, and the sources it draws at random. -/
structure CameraConfig where
  cameraId : String
  rtspServer : Bool
  substream : Bool
  ssrc : UInt32
  subSsrc : UInt32
  deriving DecidableEq, Repr

/-- The two mounts. -/
inductive Mount
  | main
  | sub
  deriving DecidableEq, Repr

/-- The path of a mount. -/
@[grind =] def Mount.path (cameraId : String) : Mount → String
  | main => "live/" ++ cameraId
  | sub => "live/" ++ cameraId ++ "/sub"

/-- The source that a mount was registered with. -/
def Mount.ssrc (c : CameraConfig) : Mount → UInt32
  | main => c.ssrc
  | sub => c.subSsrc

/-- The tasks that send into the mounts, and what they have sent. -/
structure Mounts where
  /-- The output of the main mount, while its task runs. -/
  output : Option RtspOutput
  /-- Whether the task that forwards the substream runs. -/
  forwarder : Bool
  sent : List (Mount × List UInt8) := []

/-- The mounts that `create_stream` sets up. -/
def createMounts (c : CameraConfig) : Mounts where
  output :=
    if c.rtspServer then some (.withChannel (Mount.main.path c.cameraId) sdpBody c.ssrc) else none
  forwarder := c.rtspServer && c.substream

/-- What can happen to the tasks. -/
inductive MountEvent
  /-- The hub's task starts the output. -/
  | startOutput
  /-- The hub's task receives a frame. -/
  | mainFrame (frame : MediaFrame)
  /-- The hub's task stops the output. -/
  | stopOutput
  /-- The forwarding task receives a frame; its `send` succeeds unless the mount has no receiver
  any more. -/
  | subFrame (frame : MediaFrame) (accepted : Bool)
  /-- The broadcast of the substream is closed. -/
  | subClosed

/-- A step of one of the tasks. -/
def mountStep (s : Mounts) : MountEvent → Option Mounts
  | .startOutput =>
      s.output.bind fun o =>
        if o.started then none
        else some { s with output := o.start.toOption }
  | .mainFrame frame =>
      s.output.bind fun o =>
        if o.started then
          match o.sendFrame frame with
          | .ok (o', pushed) =>
              some { s with
                output := some o'
                sent := s.sent ++
                  (pushed.parameterSets ++ pushed.packets).map fun b => (Mount.main, b) }
          | .error _ => some { s with output := none }
        else none
  | .stopOutput => s.output.bind fun o => if o.started then some { s with output := none } else none
  | .subFrame frame accepted =>
      if s.forwarder then
        match frame with
        | .video _ data _ =>
            if accepted then some { s with sent := s.sent ++ [(Mount.sub, data)] }
            else some { s with forwarder := false }
        | .audio _ _ => some s
      else none
  | .subClosed => if s.forwarder then some { s with forwarder := false } else none

/-- **Everything sent into a mount is an RTP packet** of version 2 with the source of the mount. -/
def CarriesRtp (c : CameraConfig) (s : Mounts) : Prop :=
  ∀ x ∈ s.sent, ParsesAs (x.1.ssrc c) x.2

/-- The frame is forwarded into the mount of the substream. -/
def MountEvent.forwards : MountEvent → Bool
  | subFrame (.video _ _ _) accepted => accepted
  | _ => false

/-- A NAL unit has its forbidden bit clear. -/
def EncodedNal (data : List UInt8) : Prop := ∀ b ∈ data.head?, b &&& 0x80 = 0

/-- The frames of the substream hold NAL units. -/
def MountEvent.Encoded : MountEvent → Prop
  | subFrame (.video _ data _) _ => EncodedNal data
  | _ => True

/-! ### NAL units are no packets -/

/-- The version in a byte whose highest bit is clear. -/
theorem version_ne_two {b : UInt8} (h : b &&& 0x80 = 0) : (b >>> 6) &&& 0x03 ≠ rtpVersion := by
  revert b
  refine @forall_byte _ ?_
  decide +kernel

/-- **A NAL unit is no RTP packet**: its forbidden bit is where the version begins. -/
theorem not_parses_nal {data : List UInt8} (h : EncodedNal data) (ssrc : UInt32) :
    ¬ ParsesAs ssrc data := by
  rintro ⟨p, hp, -, -⟩
  unfold RtpPacket.parse at hp
  dsimp only at hp
  split at hp
  · cases hp
  · rename_i hlen
    cases data with
    | nil => exact hlen (by decide)
    | cons b data =>
        -- the forbidden bit is the high bit of the version
        have hversion := version_ne_two (h b rfl)
        rw [if_pos (by exact hversion)] at hp
        cases hp

/-! ### Runs -/

/-- The output has the source of the main mount. -/
def Sourced (c : CameraConfig) (s : Mounts) : Prop := ∀ o ∈ s.output, o.ssrc = c.ssrc

theorem sourced_createMounts (c : CameraConfig) : Sourced c (createMounts c) := by
  intro o ho
  rw [createMounts] at ho
  split at ho
  · rw [← Option.some.inj ho]
    rfl
  · cases ho

theorem ssrc_of_start {o o' : RtspOutput} (h : o' ∈ o.start.toOption) : o'.ssrc = o.ssrc := by
  unfold RtspOutput.start at h
  split at h
  · cases h
  · split at h
    · rw [← Option.some.inj h]
    · cases h

/-- **What a step sends**: packets of the output into the main mount, or the frame that a running
task forwards; no step starts that task again. -/
theorem mountStep_spec {c : CameraConfig} {s t : Mounts} {e : MountEvent} (hs : Sourced c s)
    (h : mountStep s e = some t) :
    Sourced c t ∧ (t.forwarder = true → s.forwarder = true) ∧ ∃ new, t.sent = s.sent ++ new ∧
      ((e.forwards = false ∧ ∀ x ∈ new, ParsesAs (x.1.ssrc c) x.2) ∨
        s.forwarder = true ∧ ∃ keyframe data timestamp,
          e = .subFrame (.video keyframe data timestamp) true ∧ new = [(Mount.sub, data)]) := by
  have hnothing : ∀ {u : Mounts}, u.sent = s.sent → e.forwards = false →
      ∃ new, u.sent = s.sent ++ new ∧
        ((e.forwards = false ∧ ∀ x ∈ new, ParsesAs (x.1.ssrc c) x.2) ∨
          s.forwarder = true ∧ ∃ keyframe data timestamp,
            e = .subFrame (.video keyframe data timestamp) true ∧ new = [(Mount.sub, data)]) := by
    intro u hu hforwards
    refine ⟨[], by rw [hu, List.append_nil], .inl ⟨hforwards, ?_⟩⟩
    intro x hx
    cases hx
  have hnone : ∀ {u : Mounts}, u.output = none → Sourced c u := by
    intro u hu o ho
    rw [hu] at ho
    cases ho
  cases e with
  | startOutput =>
      obtain ⟨o, ho, h⟩ := Option.bind_eq_some_iff.1 h
      split at h
      · cases h
      · rw [← Option.some.inj h]
        exact ⟨fun o' ho' => (ssrc_of_start ho').trans (hs o ho), id, hnothing rfl rfl⟩
  | mainFrame frame =>
      obtain ⟨o, ho, h⟩ := Option.bind_eq_some_iff.1 h
      split at h
      · split at h
        · rename_i o' pushed hsend
          obtain ⟨hssrc, -, hpackets⟩ := RtspOutput.sendFrame_parses hsend
          rw [← Option.some.inj h]
          refine ⟨fun o₁ ho₁ => ?_, id, _, rfl, .inl ⟨rfl, fun x hx => ?_⟩⟩
          · rw [← Option.some.inj ho₁, hssrc]
            exact hs o ho
          · obtain ⟨b, hb, rfl⟩ := List.mem_map.1 hx
            have hparses := hpackets b hb
            rw [hs o ho] at hparses
            exact hparses
        · rw [← Option.some.inj h]
          exact ⟨hnone rfl, id, hnothing rfl rfl⟩
      · cases h
  | stopOutput =>
      obtain ⟨o, ho, h⟩ := Option.bind_eq_some_iff.1 h
      split at h
      · rw [← Option.some.inj h]
        exact ⟨hnone rfl, id, hnothing rfl rfl⟩
      · cases h
  | subFrame frame accepted =>
      cases frame with
      | audio data timestamp =>
          simp only [mountStep] at h
          split at h
          · rw [← Option.some.inj h]
            exact ⟨hs, id, hnothing rfl rfl⟩
          · cases h
      | video keyframe data timestamp =>
          simp only [mountStep] at h
          split at h
          · rename_i hforwarder
            cases accepted with
            | true =>
                rw [if_pos rfl] at h
                rw [← Option.some.inj h]
                exact ⟨hs, id, _, rfl, .inr ⟨hforwarder, keyframe, data, timestamp, rfl, rfl⟩⟩
            | false =>
                rw [if_neg (by decide)] at h
                rw [← Option.some.inj h]
                exact ⟨hs, fun _ => hforwarder, hnothing rfl rfl⟩
          · cases h
  | subClosed =>
      rw [mountStep] at h
      split at h
      · rename_i hforwarder
        rw [← Option.some.inj h]
        exact ⟨hs, fun _ => hforwarder, hnothing rfl rfl⟩
      · cases h

/-- One step keeps to RTP exactly when it forwards nothing. -/
theorem carriesRtp_step_iff {c : CameraConfig} {s t : Mounts} {e : MountEvent} (hs : Sourced c s)
    (hencoded : e.Encoded) (h : mountStep s e = some t) :
    CarriesRtp c t ↔ CarriesRtp c s ∧ e.forwards = false := by
  obtain ⟨-, -, new, hsent, ⟨hforwards, hnew⟩ | ⟨-, keyframe, data, timestamp, rfl, rfl⟩⟩ :=
    mountStep_spec hs h
  · constructor
    · intro ht
      exact ⟨fun x hx => ht x (by rw [hsent]; exact List.mem_append_left _ hx), hforwards⟩
    · rintro ⟨hrtp, -⟩ x hx
      rw [hsent] at hx
      rcases List.mem_append.1 hx with hx | hx
      · exact hrtp x hx
      · exact hnew x hx
  · refine iff_of_false ?_ ?_
    · intro ht
      have hmem : (Mount.sub, data) ∈ t.sent := by
        rw [hsent]
        exact List.mem_append_right _ List.mem_cons_self
      exact not_parses_nal hencoded _ (ht _ hmem)
    · rintro ⟨-, hforwards⟩
      cases hforwards

/-- A run keeps to RTP exactly when nothing is forwarded in it. -/
theorem carriesRtp_exec_iff {c : CameraConfig} {events : List MountEvent} : ∀ {s t : Mounts},
    Sourced c s → (∀ e ∈ events, e.Encoded) → exec mountStep s events = some t →
    (CarriesRtp c t ↔ CarriesRtp c s ∧ ∀ e ∈ events, e.forwards = false) := by
  induction events with
  | nil =>
      intro s t _ _ h
      cases h
      exact ⟨fun hrtp => ⟨hrtp, fun e he => by cases he⟩, fun hrtp => hrtp.1⟩
  | cons e events ih =>
      intro s t hs hencoded h
      rw [exec_cons] at h
      obtain ⟨u, hu, h⟩ := Option.bind_eq_some_iff.1 h
      have hstep := carriesRtp_step_iff hs (hencoded e List.mem_cons_self) hu
      rw [ih (mountStep_spec hs hu).1 (fun e' he' => hencoded e' (List.mem_cons_of_mem _ he')) h,
        hstep, List.forall_mem_cons, and_assoc]

/-- Without a forwarding task nothing is forwarded. -/
theorem forwards_eq_false {c : CameraConfig} {events : List MountEvent} : ∀ {s t : Mounts},
    Sourced c s → s.forwarder = false → exec mountStep s events = some t →
    ∀ e ∈ events, e.forwards = false := by
  induction events with
  | nil =>
      intro s t _ _ _ e he
      cases he
  | cons e events ih =>
      intro s t hs hforwarder h
      rw [exec_cons] at h
      obtain ⟨u, hu, h⟩ := Option.bind_eq_some_iff.1 h
      obtain ⟨hsu, hmono, new, -, hsent⟩ := mountStep_spec hs hu
      rw [List.forall_mem_cons]
      constructor
      · rcases hsent with ⟨hforwards, -⟩ | ⟨htrue, -⟩
        · exact hforwards
        · rw [hforwarder] at htrue
          cases htrue
      · refine ih hsu ?_ h
        rw [← Bool.not_eq_true] at hforwarder ⊢
        exact fun hu => hforwarder (hmono hu)

/-- **Everything sent into the mounts of a stream is an RTP packet exactly when the substream's task
forwards nothing**; and it forwards nothing if there is no RTSP server or no substream. -/
theorem carriesRtp_iff (c : CameraConfig) (events : List MountEvent) (s : Mounts)
    (hrun : exec mountStep (createMounts c) events = some s) (hencoded : ∀ e ∈ events, e.Encoded) :
    (CarriesRtp c s ↔ ∀ e ∈ events, e.forwards = false) ∧
      (c.rtspServer = false ∨ c.substream = false → ∀ e ∈ events, e.forwards = false) := by
  constructor
  · rw [carriesRtp_exec_iff (sourced_createMounts c) hencoded hrun]
    refine ⟨fun h => h.2, fun h => ⟨?_, h⟩⟩
    intro x hx
    cases hx
  · intro hconfig
    refine forwards_eq_false (sourced_createMounts c) ?_ hrun
    rcases hconfig with hserver | hsub
    · simp [createMounts, hserver]
    · simp [createMounts, hsub]

/-- A camera with a substream. -/
def twoMounts : CameraConfig where
  cameraId := "cam-1"
  rtspServer := true
  substream := true
  ssrc := 1
  subSsrc := 2

/-- A slice on the main mount, and nothing from the substream yet. -/
theorem carriesRtp_mainSlice :
    ∃ s, exec mountStep (createMounts twoMounts)
        [.startOutput, .mainFrame (.video true [0x65, 0x88] 0)] = some s ∧
      CarriesRtp twoMounts s := by
  obtain ⟨s, hs⟩ : ∃ s, exec mountStep (createMounts twoMounts)
      [.startOutput, .mainFrame (.video true [0x65, 0x88] 0)] = some s := ⟨_, rfl⟩
  refine ⟨s, hs, (carriesRtp_iff twoMounts _ s hs ?_).1.2 ?_⟩
  · intro e he
    simp only [List.mem_cons, List.not_mem_nil, or_false] at he
    rcases he with rfl | rfl
    · trivial
    · trivial
  · intro e he
    simp only [List.mem_cons, List.not_mem_nil, or_false] at he
    rcases he with rfl | rfl
    · rfl
    · rfl

/-- The first NAL unit of the substream is sent into its mount as it is. -/
theorem not_carriesRtp_subSps :
    ∃ s, exec mountStep (createMounts twoMounts)
        [.subFrame (.video true [0x67, 0x42, 0xC0, 0x1E] 0) true] = some s ∧
      s.sent = [(Mount.sub, [0x67, 0x42, 0xC0, 0x1E])] ∧ ¬ CarriesRtp twoMounts s := by
  refine ⟨_, rfl, rfl, fun h => ?_⟩
  have hnal : EncodedNal [0x67, 0x42, 0xC0, 0x1E] := by
    intro b hb
    rw [← Option.some.inj hb]
    decide
  exact not_parses_nal hnal _ (h (Mount.sub, [0x67, 0x42, 0xC0, 0x1E]) List.mem_cons_self)

end StreamManager

/-
**The two clocks of a live delivery.**

A live stream goes from `RtspOutput` through a channel to the second loop of a connection, which
sends the packets on and a sender report every five seconds.  The packets should tell the time of
the source, 90 ticks for each millisecond, and the reports should tell the same time, so that a
client can relate the two.  In the code the packets carry a count of slices, 3000 ticks for each,
and the reports the wall clock: seconds since 1900 in ticks.

Main definitions:

* `RtspServer.Feed`, `RtspServer.Feed.step` — the output, the channel and the connection as one
  machine;
* `RtspServer.ClocksAgree` — what the timestamps of two reports and of the slices before them should
  be;
* `RtspServer.ntpTicks` — the wall clock in ticks.

Main results:

* `RtspServer.timed_step` — in every state a slice that has been sent carries 3000 times the number
  of slices before it, and a report the wall clock;
* `RtspServer.clocksAgree_iff` — **when the clocks agree**.
-/

import MibeeEye.RtspConnection
import MibeeEye.RtspOutput
import Mathlib.Data.Int.ModEq
import Mathlib.Tactic.Ring

set_option relaxedAutoImplicit false
set_option autoImplicit false

namespace RtspServer

open Machine Wire Rtmp

/-! ### From the source to the client -/

/-- Where a slice comes from: the number of slices before it, and its timestamp in milliseconds. -/
structure Origin where
  index : ℕ
  source : ℕ
  deriving DecidableEq, Repr

/-- A packet in the channel; that of a slice with its origin. -/
structure Packet where
  bytes : List UInt8
  origin : Option Origin
  deriving DecidableEq, Repr

/-- What has been sent to the client, apart from responses. -/
inductive Item
  /-- A packet of a slice. -/
  | slice (frame : List UInt8) (origin : Origin)
  /-- Any other packet. -/
  | other (frame : List UInt8)
  /-- A sender report, with the wall clock and the milliseconds since the source was started. -/
  | report (frame : List UInt8) (ntp : UInt64) (elapsed : ℕ)
  deriving DecidableEq, Repr

/-- The output, the channel and the connection. -/
structure Feed where
  output : RtspOutput
  /-- How many slices the output has been given. -/
  slices : ℕ := 0
  channel : List Packet := []
  conn : Conn
  sent : List Item := []

/-- What can happen. -/
inductive FeedEvent
  /-- The hub gives the output a frame. -/
  | push (frame : MediaFrame)
  /-- The second loop of the connection starts, and subscribes to the channel. -/
  | play (d : Delivery)
  /-- The second loop takes a packet from the channel. -/
  | deliver (now : ℕ) (writeOk : Bool)
  /-- The second loop has fallen behind, and the oldest packets are gone. -/
  | lagged (n : ℕ)
  /-- The timer of the second loop. -/
  | tick (now : ℕ) (ntp : UInt64) (writeOk : Bool) (elapsed : ℕ)
  /-- The second loop reads a request. -/
  | request (req : ParsedRequest) (env : Env)

/-- The frames that a step of the connection writes. -/
def writtenFrames (out : List Written) : List (List UInt8) :=
  out.filterMap fun
    | .frame bytes => some bytes
    | .response _ => none

/-- A packet as it has been sent. -/
def Packet.item (p : Packet) (frame : List UInt8) : Item :=
  match p.origin with
  | some origin => .slice frame origin
  | none => .other frame

namespace Feed

/-- The packets of a frame. -/
def packetsOf (f : Feed) (frame : MediaFrame) (out : RtspOutput.Pushed) : List Packet :=
  let origin := match frame with
    | .video _ _ timestamp =>
        if RtspOutput.isSliceFrame frame then some ⟨f.slices, timestamp⟩ else none
    | .audio _ _ => none
  out.parameterSets.map (fun bytes => ⟨bytes, none⟩) ++ out.packets.map fun bytes => ⟨bytes, origin⟩

/-- A frame is pushed; nobody is subscribed before the second loop starts. -/
def push (f : Feed) (frame : MediaFrame) : Feed :=
  match f.output.sendFrame frame with
  | .error _ => f
  | .ok (output, out) =>
      { f with
        output := output
        slices := if RtspOutput.isSliceFrame frame then f.slices + 1 else f.slices
        channel := match f.conn.phase with
          | .delivering _ => f.channel ++ f.packetsOf frame out
          | _ => f.channel }

/-- What the second loop does with the first packet of the channel. -/
def send (f : Feed) (d : Delivery) (p : Packet) (channel : List Packet) (now : ℕ)
    (writeOk : Bool) : Feed :=
  let r := deliverFrame f.conn d p.bytes now writeOk
  { f with
    channel := channel
    conn := r.1
    sent := f.sent ++ (writtenFrames r.2).map p.item }

/-- What the second loop does when its timer fires. -/
def report (f : Feed) (d : Delivery) (now : ℕ) (ntp : UInt64) (writeOk : Bool) (elapsed : ℕ) :
    Feed :=
  let r := deliverTick f.conn d now ntp writeOk
  { f with
    conn := r.1
    sent := f.sent ++ (writtenFrames r.2).map fun frame => .report frame ntp elapsed }

/-- **One step.** -/
def step (f : Feed) : FeedEvent → Option Feed
  | .push frame => some (f.push frame)
  | .play d =>
      match f.conn.phase with
      | .reading => some { f with conn := { f.conn with phase := .delivering d } }
      | _ => none
  | .deliver now writeOk =>
      match f.conn.phase, f.channel with
      | .delivering d, p :: channel => some (f.send d p channel now writeOk)
      | _, _ => none
  | .lagged n =>
      match f.conn.phase with
      | .delivering _ => some { f with channel := f.channel.drop n }
      | _ => none
  | .tick now ntp writeOk elapsed =>
      match f.conn.phase with
      | .delivering d => some (f.report d now ntp writeOk elapsed)
      | _ => none
  | .request req env =>
      match f.conn.phase with
      | .delivering d => some { f with conn := (readDelivering f.conn d req env).1 }
      | _ => none

/-- The output has been started, and the connection has not come to its second loop. -/
def new (output : RtspOutput) (conn : Conn) : Feed := { output, conn }

end Feed

/-! ### Timestamps -/

/-- The wall clock in ticks of 90 kHz since 1900. -/
def ntpTicks (ntp : UInt64) : ℕ := ntp.toNat * 90000 / 2 ^ 32

/-- `ntp_to_rtp` is the wall clock modulo `2 ^ 32`. -/
theorem toNat_ntpToRtp (ntp : UInt64) : (ntpToRtp ntp 90000).toNat = ntpTicks ntp % 2 ^ 32 := by
  have hlt : ntp.toNat < 2 ^ 64 := ntp.toNat_lt
  have hrate : (90000 : UInt32).toNat = 90000 := rfl
  have hsecs : ntp.toNat / 2 ^ 32 * 90000 < 2 ^ 64 := by omega
  have hticks : ntp.toNat * 90000 / 2 ^ 32 =
      ntp.toNat / 2 ^ 32 * 90000 + ntp.toNat % 2 ^ 32 * 90000 / 2 ^ 32 := by
    nth_rewrite 1 [← Nat.div_add_mod ntp.toNat (2 ^ 32)]
    rw [Nat.add_mul, Nat.mul_assoc, Nat.mul_add_div (Nat.two_pow_pos 32)]
  rw [ntpToRtp, ntpTicks, hrate, Nat.mod_eq_of_lt hsecs, UInt32.toNat_ofNat', hticks]

/-- The RTP timestamp that an item carries. -/
def Item.rtp : Item → ℕ
  | .slice frame _ => ofBe (Wire.slice frame 8 12)
  | .other frame => ofBe (Wire.slice frame 8 12)
  | .report frame _ _ => ofBe (Wire.slice frame 20 24)

/-- The four bytes before an interleaved frame. -/
theorem slice_interleaved {channel : UInt8} {data frame : List UInt8} (i j : ℕ)
    (h : buildInterleavedFrame channel data = .ok frame) :
    Wire.slice frame (i + 4) (j + 4) = Wire.slice data i j := by
  rw [buildInterleavedFrame] at h
  split at h
  · cases h
  · cases h
    have hdrop : (0x24 :: channel :: beBytes 2 data.length ++ data).drop (i + 4) = data.drop i := by
      have hheader : (0x24 :: channel :: beBytes 2 data.length).length = 4 := by simp
      rw [Nat.add_comm, ← List.drop_drop, List.drop_left' hheader]
    rw [Wire.slice, Wire.slice, hdrop, Nat.add_sub_add_right]

theorem rtp_of_deliverFrame {c : Conn} {d : Delivery} {data : List UInt8} {now : ℕ} {writeOk : Bool}
    {frame : List UInt8} (h : frame ∈ writtenFrames (deliverFrame c d data now writeOk).2) :
    ofBe (Wire.slice frame 8 12) = rtpTimestampOf data := by
  rw [deliverFrame] at h
  dsimp only at h
  split at h
  · rename_i built hbuilt
    obtain rfl : frame = built := by simpa [writtenFrames] using h
    rw [rtpTimestampOf, ← slice_interleaved 4 8 hbuilt]
  · simp [writtenFrames] at h

theorem rtp_of_deliverTick {c : Conn} {d : Delivery} {now : ℕ} {ntp : UInt64} {writeOk : Bool}
    {frame : List UInt8} (h : frame ∈ writtenFrames (deliverTick c d now ntp writeOk).2) :
    ofBe (Wire.slice frame 20 24) = ntpTicks ntp % 2 ^ 32 := by
  rw [deliverTick] at h
  dsimp only at h
  split at h
  · simp [writtenFrames] at h
  · split at h
    · rename_i built hbuilt
      obtain rfl : frame = built := by simpa [writtenFrames] using h
      have hslice : Wire.slice frame 20 24 = beBytes 4 (ntpToRtp ntp 90000).toNat := by
        rw [slice_interleaved 16 20 hbuilt, buildSenderReport, Wire.slice, List.append_assoc,
          List.append_assoc, List.drop_left' (by simp), List.take_left' (by simp)]
      rw [hslice, ofBe_beBytes_of_lt (UInt32.toNat_lt _), toNat_ntpToRtp]
    · simp [writtenFrames] at h

/-! ### What the timestamps are -/

/-- A slice carries the number of slices before it, and a report the wall clock. -/
def Item.Timed : Item → Prop
  | .slice frame origin => (Item.slice frame origin).rtp = 3000 * origin.index % 2 ^ 32
  | .other _ => True
  | .report frame ntp elapsed => (Item.report frame ntp elapsed).rtp = ntpTicks ntp % 2 ^ 32

/-- The invariant: the counter, the packets in the channel and what has been sent. -/
structure Timed (f : Feed) : Prop where
  counter : f.output.rtpTimestamp.toNat = 3000 * f.slices % 2 ^ 32
  channel : ∀ p ∈ f.channel, ∀ o ∈ p.origin, rtpTimestampOf p.bytes = 3000 * o.index % 2 ^ 32
  sent : ∀ i ∈ f.sent, i.Timed

/-- The packets of a frame carry the counter. -/
theorem timed_packetsOf {f : Feed} (hf : Timed f) {frame : MediaFrame} {output : RtspOutput}
    {out : RtspOutput.Pushed} (h : f.output.sendFrame frame = .ok (output, out)) :
    ∀ p ∈ f.packetsOf frame out, ∀ o ∈ p.origin,
      rtpTimestampOf p.bytes = 3000 * o.index % 2 ^ 32 := by
  intro p hp o ho
  rcases List.mem_append.1 hp with hp | hp
  · obtain ⟨bytes, -, rfl⟩ := List.mem_map.1 hp
    cases ho
  · obtain ⟨bytes, hbytes, rfl⟩ := List.mem_map.1 hp
    have hindex : o.index = f.slices := by
      cases frame with
      | audio data timestamp => cases ho
      | video keyframe data timestamp =>
          dsimp only at ho
          split at ho
          · cases ho
            rfl
          · cases ho
    rw [(RtspOutput.sendFrame_spec h).1 bytes hbytes, hf.counter, hindex]

/-- The counter after a frame. -/
theorem counter_push {f : Feed} (hf : Timed f) {frame : MediaFrame} {output : RtspOutput}
    {out : RtspOutput.Pushed} (h : f.output.sendFrame frame = .ok (output, out)) :
    output.rtpTimestamp.toNat =
      3000 * (if RtspOutput.isSliceFrame frame then f.slices + 1 else f.slices) % 2 ^ 32 := by
  rw [(RtspOutput.sendFrame_spec h).2, UInt32.toNat_add, hf.counter]
  cases RtspOutput.isSliceFrame frame with
  | true =>
      change (3000 * f.slices % 2 ^ 32 + 3000) % 2 ^ 32 = 3000 * (f.slices + 1) % 2 ^ 32
      omega
  | false =>
      change (3000 * f.slices % 2 ^ 32 + 0) % 2 ^ 32 = 3000 * f.slices % 2 ^ 32
      omega

theorem timed_push {f : Feed} (hf : Timed f) (frame : MediaFrame) : Timed (f.push frame) := by
  unfold Feed.push
  split
  · exact hf
  · rename_i output out hsend
    refine ⟨counter_push hf hsend, ?_, hf.sent⟩
    intro p hp
    dsimp only at hp
    split at hp
    · rcases List.mem_append.1 hp with hp | hp
      · exact hf.channel p hp
      · exact timed_packetsOf hf hsend p hp
    · exact hf.channel p hp

theorem timed_send {f : Feed} (hf : Timed f) {d : Delivery} {p : Packet} {channel : List Packet}
    (hchannel : f.channel = p :: channel) (now : ℕ) (writeOk : Bool) :
    Timed (f.send d p channel now writeOk) := by
  refine ⟨hf.counter, ?_, ?_⟩
  · intro q hq
    exact hf.channel q (by rw [hchannel]; exact List.mem_cons_of_mem _ hq)
  · intro i hi
    rcases List.mem_append.1 hi with hi | hi
    · exact hf.sent i hi
    · obtain ⟨frame, hframe, rfl⟩ := List.mem_map.1 hi
      have hrtp := rtp_of_deliverFrame hframe
      unfold Packet.item
      split
      · rename_i origin horigin
        rw [Item.Timed, Item.rtp, hrtp]
        exact hf.channel p (by rw [hchannel]; exact List.mem_cons_self) origin horigin
      · exact trivial

theorem timed_report {f : Feed} (hf : Timed f) (d : Delivery) (now : ℕ) (ntp : UInt64)
    (writeOk : Bool) (elapsed : ℕ) : Timed (f.report d now ntp writeOk elapsed) := by
  refine ⟨hf.counter, hf.channel, ?_⟩
  intro i hi
  rcases List.mem_append.1 hi with hi | hi
  · exact hf.sent i hi
  · obtain ⟨frame, hframe, rfl⟩ := List.mem_map.1 hi
    exact rtp_of_deliverTick hframe

/-- **A step keeps the invariant.** -/
theorem timed_step {f f' : Feed} {e : FeedEvent} (hf : Timed f) (h : f.step e = some f') :
    Timed f' := by
  cases e with
  | push frame =>
      cases h
      exact timed_push hf frame
  | play d =>
      simp only [Feed.step] at h
      split at h <;> cases h
      exact ⟨hf.counter, hf.channel, hf.sent⟩
  | deliver now writeOk =>
      simp only [Feed.step] at h
      split at h
      · rename_i hchannel
        cases h
        exact timed_send hf hchannel now writeOk
      · cases h
  | lagged n =>
      simp only [Feed.step] at h
      split at h <;> cases h
      exact ⟨hf.counter, fun p hp => hf.channel p (List.mem_of_mem_drop hp), hf.sent⟩
  | tick now ntp writeOk elapsed =>
      simp only [Feed.step] at h
      split at h <;> cases h
      exact timed_report hf _ now ntp writeOk elapsed
  | request req env =>
      simp only [Feed.step] at h
      split at h <;> cases h
      exact ⟨hf.counter, hf.channel, hf.sent⟩

/-- The invariant holds at the start, and so in every state that is reached. -/
theorem timed_exec {path sdp : String} {ssrc : UInt32} {output : RtspOutput} {conn : Conn}
    {es : List FeedEvent} {f : Feed}
    (hstart : (RtspOutput.withChannel path sdp ssrc).start = .ok output)
    (h : exec Feed.step (.new output conn) es = some f) : Timed f := by
  have hcounter : output.rtpTimestamp = 0 := by
    rw [RtspOutput.start] at hstart
    split at hstart
    · cases hstart
    · split at hstart <;> cases hstart
      rfl
  have hnew : Timed (.new output conn) := by
    refine ⟨?_, ?_, ?_⟩
    · rw [Feed.new, hcounter]
      rfl
    · intro p hp
      cases hp
    · intro i hi
      cases hi
  exact exec_invariant (P := fun _ => True) (fun s a t _ => timed_step) (fun _ _ => trivial) hnew h

/-! ### When the clocks agree -/

/-- A sender report, with the last slice before it. -/
structure Reading where
  /-- The RTP timestamp of the slice. -/
  packet : ℕ
  origin : Origin
  /-- The RTP timestamp of the report. -/
  report : ℕ
  ntp : UInt64
  elapsed : ℕ
  deriving DecidableEq, Repr

/-- The reports among what has been sent, from the last slice on. -/
def readings : Option (ℕ × Origin) → List Item → List Reading
  | _, [] => []
  | _, .slice frame origin :: items =>
      readings (some ((Item.slice frame origin).rtp, origin)) items
  | last, .other _ :: items => readings last items
  | none, .report _ _ _ :: items => readings none items
  | some (packet, origin), .report frame ntp elapsed :: items =>
      ⟨packet, origin, (Item.report frame ntp elapsed).rtp, ntp, elapsed⟩ ::
        readings (some (packet, origin)) items

/-- What a reading says of timed items. -/
def Reading.Timed (r : Reading) : Prop :=
  r.packet = 3000 * r.origin.index % 2 ^ 32 ∧ r.report = ntpTicks r.ntp % 2 ^ 32

theorem timed_readings {items : List Item} (hitems : ∀ i ∈ items, i.Timed) :
    ∀ last : Option (ℕ × Origin), (∀ p ∈ last, p.1 = 3000 * p.2.index % 2 ^ 32) →
      ∀ r ∈ readings last items, r.Timed := by
  induction items with
  | nil =>
      intro last _ r hr
      cases hr
  | cons i items ih =>
      intro last hlast r hr
      have hi := hitems i List.mem_cons_self
      have ih := ih fun j hj => hitems j (List.mem_cons_of_mem _ hj)
      cases i with
      | slice frame origin =>
          refine ih _ ?_ r hr
          rintro p ⟨⟩
          exact hi
      | other frame => exact ih _ hlast r hr
      | report frame ntp elapsed =>
          cases last with
          | none => exact ih _ hlast r hr
          | some p =>
              rcases List.mem_cons.1 hr with rfl | hr
              · exact ⟨hlast p rfl, hi⟩
              · exact ih _ hlast r hr

/-- Slices and reports tell the time of the source, 90 ticks for each millisecond modulo `2 ^ 32`,
and both from the same zero. -/
def ClocksAgree (a b : Reading) : Prop :=
  (b.packet - a.packet : ℤ) ≡ 90 * (b.origin.source - a.origin.source) [ZMOD 2 ^ 32] ∧
  (b.report - a.report : ℤ) ≡ 90 * (b.elapsed - a.elapsed) [ZMOD 2 ^ 32] ∧
  (a.report - a.packet : ℤ) ≡ 90 * (a.elapsed - a.origin.source) [ZMOD 2 ^ 32]

/-- A difference of residues modulo `2 ^ 32` is the residue of the difference. -/
theorem sub_modEq_iff {a b : ℕ} {c : ℤ} :
    ((b % 2 ^ 32 : ℕ) - (a % 2 ^ 32 : ℕ) : ℤ) ≡ c [ZMOD 2 ^ 32] ↔
      (b - a : ℤ) ≡ c [ZMOD 2 ^ 32] := by
  have hb : ((b % 2 ^ 32 : ℕ) : ℤ) ≡ b [ZMOD 2 ^ 32] := by
    rw [Int.natCast_mod]
    exact Int.mod_modEq _ _
  have ha : ((a % 2 ^ 32 : ℕ) : ℤ) ≡ a [ZMOD 2 ^ 32] := by
    rw [Int.natCast_mod]
    exact Int.mod_modEq _ _
  exact ⟨fun h => (hb.sub ha).symm.trans h, fun h => (hb.sub ha).trans h⟩

theorem dvd_thirty_mul_iff {x : ℤ} : (2 ^ 32 : ℤ) ∣ 30 * x ↔ (2 ^ 31 : ℤ) ∣ x := by
  omega

/-- An output that has been started. -/
def startedOutput : RtspOutput := { RtspOutput.withChannel "cam" "" 1 with started := true }

/-- A slice is pushed, and sent at once. -/
def sliceAt (timestamp : ℕ) : List FeedEvent :=
  [.push (.video true [0x65] timestamp), .deliver 0 true]

/-- A number of seconds since 1900. -/
def ntpAt (seconds : UInt64) : UInt64 := seconds <<< 32

/-- The timer fires. -/
def reportAt (seconds : UInt64) (elapsed : ℕ) : FeedEvent := .tick 0 (ntpAt seconds) true elapsed

/-- The second loop starts. -/
def playAt : FeedEvent :=
  .play { request := playCam, interleaveChannel := 0, rtcpChannel := 1, ssrc := 1, lastActivity := 0 }

/-- Thirty slices for each second, from a moment at which the wall clock shows zero modulo
`2 ^ 32`. -/
def steadyCamera : List FeedEvent :=
  [playAt] ++ sliceAt 0 ++ [reportAt 4026531840 0] ++ sliceAt 33 ++ sliceAt 66 ++ sliceAt 100 ++
    [reportAt 4026531845 5000]

/-- Ten slices for each second. -/
def slowCamera : List FeedEvent :=
  [playAt] ++ sliceAt 0 ++ [reportAt 4026531840 0] ++ sliceAt 100 ++ [reportAt 4026531845 5000]

end RtspServer

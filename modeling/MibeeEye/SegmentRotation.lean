/-
**Rotation of segments.**

When a frame rotates the segment of a `FileOutput`, the segment before is finished first, and then the
next one is opened.  If that works, the frame is the first of the next segment, at time zero.  If it
does not, the log says that the code continues with the current segment; but there is none any more,
the frame is lost, and the slot names a segment that is not written.

Main definitions:

* `Recording.Rotates` — a frame rotates the segment;
* `Recording.KeepsRecording` — the frame goes to the segment that was active before.

Main results:

* `Recording.sendFrame_of_opened` — a rotation that works;
* `Recording.sendFrame_of_failed` — one that does not;
* `Recording.not_keepsRecording` — **a rotation that fails never keeps recording**.
-/

import MibeeEye.FileOutput

set_option relaxedAutoImplicit false
set_option autoImplicit false

namespace Recording

open Rtmp

/-! ### What is wanted -/

/-- A frame rotates the segment: it is let through, and the segment has its age at a keyframe. -/
structure Rotates (o : FileOutput) (keyframe : Bool) (e : Env) : Prop where
  passes : o.pauseFlag.getD false = false
  started : o.started = true
  opens : o.openNow keyframe e.instant = true

/-- All segments of a recorder. -/
def Recorder.segments (r : Recorder) : List Muxer :=
  r.finished ++ (r.output.active.map ActiveSegment.muxer).toList

/-- The times within a segment do not decrease. -/
def Muxer.NonDecreasing (m : Muxer) : Prop := (m.samples.map Sample.pts).Pairwise (· ≤ ·)

/-- **The frame goes to the segment that was active before**, whose times keep their order, and the
slot still names it. -/
def KeepsRecording (o : FileOutput) (a : ActiveSegment) (keyframe : Bool) (data : List UInt8)
    (timestamp : ℕ) (e : Env) : Prop :=
  ∃ t result,
    Recorder.sendFrame { output := o } (.video keyframe data timestamp) e = some (t, result) ∧
      (∃ m ∈ t.segments, m.file = a.muxer.file ∧
        (∃ pts, m.samples = a.muxer.samples ++ [{ pts, annexB := [0, 0, 0, 1] ++ data, keyframe }]) ∧
        (a.muxer.NonDecreasing → m.NonDecreasing)) ∧
      ∀ p, t.output.segmentSlot = some p → p.map Prod.fst = some a.muxer.file

/-! ### The segment after -/

section Rotation

variable {r t : Recorder} {e : Env} {a : ActiveSegment} {keyframe : Bool} {data : List UInt8}
variable {timestamp : ℕ} {result : Except (List Char) Unit}

/-- What a rotation does: the next segment is opened, its times begin with the frame, and the frame is
written. -/
theorem sendFrame_of_rotates (hrotates : Rotates r.output keyframe e)
    (h : r.sendFrame (.video keyframe data timestamp) e = some (t, result)) :
    ∃ u opened, Recorder.openNewSegment { r with output := { r.output with wasPaused := false } } e =
        some (u, opened) ∧
      Recorder.writeFrame { u with output := { u.output with segmentStartPts := timestamp / 1000 } }
        keyframe data timestamp e = some (t, result) := by
  rw [Recorder.sendFrame_of_not keyframe data timestamp e hrotates.passes, hrotates.started,
    Bool.not_true, if_neg Bool.false_ne_true] at h
  have hopens : ({ r.output with wasPaused := false } : FileOutput).openNow keyframe e.instant =
      true := hrotates.opens
  rw [Recorder.takeFrame, if_pos hopens] at h
  obtain ⟨⟨u, opened⟩, hu, h⟩ := Option.bind_eq_some_iff.1 h
  exact ⟨u, opened, hu, h⟩

/-- **A rotation that works**: the frame is the first of the next segment, at time zero, and the one
before is finished with what it had. -/
theorem sendFrame_of_opened (hrotates : Rotates r.output keyframe e)
    (hcreated : e.created = true) (hbuilt : e.built = true) (hwritten : e.written = true)
    (h : r.sendFrame (.video keyframe data timestamp) e = some (t, result)) :
    result = .ok () ∧ t.finished = r.finished ++ (r.output.active.map ActiveSegment.muxer).toList ∧
      ∃ m, t.output.active = some { muxer := m, createdAt := e.openedAt } ∧
        m.file = r.output.segmentPath e.now ∧
        m.samples = [{ pts := 0, annexB := [0, 0, 0, 1] ++ data, keyframe }] := by
  obtain ⟨u, opened, hu, h⟩ := sendFrame_of_rotates hrotates h
  have hopened := Recorder.opened_of_openNewSegment hu
  have hactive := hopened.active
  rw [hcreated, hbuilt, Bool.and_true, if_pos rfl] at hactive
  rw [Recorder.writeFrame, hactive] at h
  simp only [hwritten, Bool.not_true, Bool.false_eq_true, if_false, sub_self, max_self] at h
  split at h
  · obtain ⟨p, -, h⟩ := Option.map_eq_some_iff.1 h
    cases h
    exact ⟨rfl, hopened.finished, _, rfl, rfl, rfl⟩
  · cases h
    exact ⟨rfl, hopened.finished, _, rfl, rfl, rfl⟩

/-- **A rotation that fails**: the segment before is finished, there is none any more, and the frame
is an error. -/
theorem sendFrame_of_failed (hrotates : Rotates r.output keyframe e)
    (hfails : e.created = false ∨ e.built = false)
    (h : r.sendFrame (.video keyframe data timestamp) e = some (t, result)) :
    result = .error "no active MP4 segment".toList ∧ t.output.active = none ∧
      t.finished = r.finished ++ (r.output.active.map ActiveSegment.muxer).toList ∧
      ∀ p, t.output.segmentSlot = some p → p.map Prod.fst = some (r.output.segmentPath e.now) := by
  obtain ⟨u, opened, hu, h⟩ := sendFrame_of_rotates hrotates h
  have hopened := Recorder.opened_of_openNewSegment hu
  have hactive : u.output.active = none := by
    rw [hopened.active, if_neg]
    rw [Bool.and_eq_true]
    rintro ⟨hcreated, hbuilt⟩
    rcases hfails with hfails | hfails
    · rw [hcreated] at hfails
      cases hfails
    · rw [hbuilt] at hfails
      cases hfails
  rw [Recorder.writeFrame, hactive] at h
  cases h
  exact ⟨rfl, hactive, hopened.finished, hopened.slot⟩

end Rotation

/-! ### A rotation that fails -/

/-- After a rotation that fails, no segment has the frame. -/
theorem segments_of_failed {o : FileOutput} {a : ActiveSegment} {t : Recorder} {e : Env}
    {keyframe : Bool} {data : List UInt8} {timestamp : ℕ} {result : Except (List Char) Unit}
    (ha : o.active = some a) (hrotates : Rotates o keyframe e)
    (hfails : e.created = false ∨ e.built = false)
    (h : Recorder.sendFrame { output := o } (.video keyframe data timestamp) e = some (t, result)) :
    t.segments = [a.muxer] := by
  obtain ⟨-, hactive, hfinished, -⟩ := sendFrame_of_failed (r := { output := o }) hrotates hfails h
  rw [Recorder.segments, hactive, hfinished, ha]
  rfl

/-- **A rotation that fails never keeps recording.** -/
theorem not_keepsRecording {o : FileOutput} {a : ActiveSegment} {e : Env} {keyframe : Bool}
    (data : List UInt8) (timestamp : ℕ) (ha : o.active = some a) (hrotates : Rotates o keyframe e)
    (hfails : e.created = false ∨ e.built = false) :
    ¬ KeepsRecording o a keyframe data timestamp e := by
  rintro ⟨t, result, h, ⟨m, hm, -, ⟨pts, hsamples⟩, -⟩, -⟩
  rw [segments_of_failed ha hrotates hfails h, List.mem_singleton] at hm
  rw [hm] at hsamples
  exact List.cons_ne_nil _ _ (List.self_eq_append_right.1 hsamples)

/-- A segment with one frame. -/
def firstSegment : ActiveSegment :=
  { muxer :=
      { file := ['r', '/', 'c'], width := 1280, height := 720, fps := 30
        samples := [{ pts := 0, annexB := [0, 0, 0, 1, 0x65], keyframe := true }] }
    createdAt := 0 }

/-- An output that writes it; the next segment is due. -/
def running : FileOutput :=
  { FileOutput.new ['r'] ['c'] 900 0 with started := true, active := some firstSegment }

theorem rotates_running (e : Env) (h : e.instant = 900 * 10 ^ 9) : Rotates running true e where
  passes := rfl
  started := rfl
  opens := by
    rw [h]
    decide

/-- The muxer is not built. -/
theorem not_keepsRecording_running :
    ¬ KeepsRecording running firstSegment true [0x65] 900000
      { clock := some 1704067200, instant := 900 * 10 ^ 9, built := false } :=
  not_keepsRecording [0x65] 900000 rfl (rotates_running _ rfl) (Or.inr rfl)

/-- The file is not created: the keyframe is in no segment. -/
theorem frame_lost :
    running.active = some firstSegment ∧
      Rotates running true { clock := some 1704067200, instant := 900 * 10 ^ 9, created := false } ∧
      ¬ KeepsRecording running firstSegment true [0x65] 900000
        { clock := some 1704067200, instant := 900 * 10 ^ 9, created := false } := by
  refine ⟨rfl, rotates_running _ rfl, ?_⟩
  rintro ⟨t, result, h, ⟨m, hm, -, ⟨pts, hsamples⟩, -⟩, -⟩
  rw [segments_of_failed rfl (rotates_running _ rfl) (Or.inl rfl) h, List.mem_singleton] at hm
  rw [hm] at hsamples
  cases hsamples

end Recording

/-
**The segment archive.**

`FileOutput` in `crates/streaming/src/output/file.rs` writes the frames of a camera into MP4 files, a
segment after the other.  A segment is opened when there is none, and at a keyframe when the one that
is open has its age; a pause closes it.  Every thousand frames the oldest files are removed until the
directory has its size.

The clocks, the directory and what the operating system and the muxer (the crate `muxide`) answer are
inputs of a call.  The seconds that the code has as floating-point numbers are rationals here.

Main definitions:

* `Recording.formatLocalTimestamp` — the stamp of a file's name;
* `Recording.FileOutput`, with `pruneOldestIfNeeded`;
* `Recording.Recorder`, with `openNewSegment`, `closeCurrentSegment`, `sendFrame`, `start`, `stop` — an
  output, and the files it has created, finished and removed;
* `Recording.Event`, `Recording.recorderStep` — the calls, and what the rest of the program changes.

Main results:

* `Recording.Recorder.opened_of_openNewSegment` — what opening a segment leaves;
* `Recording.Recorder.sendFrame_of_paused`, `Recording.Recorder.sendFrame_of_not` — what a pause does.
-/

import Mathlib.Data.List.Sort
import Mathlib.Algebra.Order.Ring.Rat
import MibeeEye.CivilDate
import MibeeEye.RtmpOutput
import MibeeEye.StepMachine

set_option relaxedAutoImplicit false
set_option autoImplicit false

namespace Recording

open Civil Rtmp

/-! ### Stamps -/

/-- `format_local_timestamp`.  Only the dividend of the era could be negative. -/
def formatLocalTimestamp (epochSecs : ℕ) : List Char :=
  let days : ℤ := (epochSecs / 86400 : ℕ)
  let secsOfDay := epochSecs % 86400
  let z := days + 719468
  let era := (if z ≥ 0 then z else z - 146096).tdiv 146097
  let doe := z - era * 146097
  let yoe := (doe - doe / 1460 + doe / 36524 - doe / 146096) / 365
  let y := yoe + era * 400
  let doy := doe - (365 * yoe + yoe / 4 - yoe / 100)
  let mp := (5 * doy + 2) / 153
  let d := doy - (153 * mp + 2) / 5 + 1
  let m := if mp < 10 then mp + 3 else mp - 9
  let y := if m ≤ 2 then y + 1 else y
  let hour := secsOfDay / 3600
  let min := secsOfDay % 3600 / 60
  let sec := secsOfDay % 60
  field 4 y ++ field 2 m ++ field 2 d ++ field 2 hour ++ field 2 min ++ field 2 sec

/-- `.mp4`. -/
def extension : List Char := ['.', 'm', 'p', '4']

/-! ### Segments -/

/-- `StreamDimensions`. -/
structure StreamDimensions where
  width : ℕ
  height : ℕ
  fps : ℚ

/-- A NAL unit as the muxer has it. -/
structure Sample where
  pts : ℚ
  annexB : List UInt8
  keyframe : Bool
  deriving DecidableEq

/-- The muxer of a file. -/
structure Muxer where
  file : List Char
  width : ℕ
  height : ℕ
  fps : ℚ
  samples : List Sample := []
  deriving DecidableEq

/-- `ActiveSegment`; the creation time is a reading of the monotonic clock, in nanoseconds. -/
structure ActiveSegment where
  muxer : Muxer
  createdAt : ℕ

/-- `FileOutput`.  A handle is there with what it holds. -/
structure FileOutput where
  path : List Char
  cameraId : List Char
  segmentDurationSecs : ℕ
  maxCapacityMb : ℕ
  width : ℕ := 1280
  height : ℕ := 720
  fps : ℚ := 30
  dimensionsHandle : Option (Option StreamDimensions) := none
  active : Option ActiveSegment := none
  segmentStartPts : ℚ := 0
  started : Bool := false
  pauseFlag : Option Bool := none
  wasPaused : Bool := false
  frameCount : ℕ := 0
  segmentSlot : Option (Option (List Char × ℕ)) := none

/-- An operation of `u64`, which panics where the result is too large. -/
def u64 (n : ℕ) : Option ℕ := if n < 2 ^ 64 then some n else none

/-! ### Pruning -/

/-- `Metadata`, as far as it is read; the modification time may be missing. -/
structure Metadata where
  isFile : Bool
  modified : Option ℕ
  len : ℕ

/-- `DirEntry`; the metadata may be missing. -/
structure DirEntry where
  fileName : List Char
  metadata : Option Metadata

/-- What the pruning knows of a recording. -/
structure Entry where
  path : List Char
  mtime : ℕ
  size : ℕ
  deriving DecidableEq

/-- The sum of the sizes. -/
def totalSize (entries : List Entry) : ℕ := (entries.map Entry.size).sum

/-- The sum of the sizes, as `u64`. -/
def sumSizes : List Entry → ℕ → Option ℕ
  | [], total => some total
  | e :: es, total => (u64 (total + e.size)).bind (sumSizes es)

/-- The loop that removes files: the total that remains, and what has been removed. -/
@[grind =]
def pruneLoop (maxBytes : ℕ) (fails : List Char → Bool) : List Entry → ℕ → Option (ℕ × List Entry)
  | [], remaining => some (remaining, [])
  | e :: es, remaining =>
      if remaining ≤ maxBytes then some (remaining, [])
      else if fails e.path then pruneLoop maxBytes fails es remaining
      else if remaining < e.size then none
      else (pruneLoop maxBytes fails es (remaining - e.size)).map fun r => (r.1, e :: r.2)

namespace FileOutput

/-- `FileOutput::new`. -/
def new (path cameraId : List Char) (segmentDurationSecs maxCapacityMb : ℕ) : FileOutput :=
  { path, cameraId, segmentDurationSecs, maxCapacityMb }

/-- A file of the directory. -/
def filePath (o : FileOutput) (fileName : List Char) : List Char := o.path ++ '/' :: fileName

/-- The file of a segment that is opened in a second. -/
def segmentPath (o : FileOutput) (now : ℕ) : List Char :=
  o.filePath (o.cameraId ++ '_' :: (formatLocalTimestamp now ++ extension))

/-- The recordings in a directory. -/
def entries (o : FileOutput) (listing : List (Option DirEntry)) : List Entry :=
  listing.reduceOption.filterMap fun e =>
    e.metadata.bind fun m =>
      if m.isFile && extension.isSuffixOf e.fileName then
        m.modified.map fun mtime => { path := o.filePath e.fileName, mtime, size := m.len }
      else none

/-- Oldest first; files of one time keep their order. -/
def sortByKey (entries : List Entry) : List Entry := entries.insertionSort fun a b => a.mtime ≤ b.mtime

/-- `prune_oldest_if_needed`: whether something was deleted, or that the directory cannot be read; and
the files that were removed. -/
def pruneOldestIfNeeded (o : FileOutput) (listing : Option (List (Option DirEntry)))
    (fails : List Char → Bool) : Option (Option Bool × List Entry) :=
  if o.maxCapacityMb = 0 then some (some false, [])
  else do
    let kilobytes ← u64 (o.maxCapacityMb * 1024)
    let maxBytes ← u64 (kilobytes * 1024)
    match listing with
    | none => some (none, [])
    | some listing =>
        let total ← sumSizes (o.entries listing) 0
        if total ≤ maxBytes then some (some false, [])
        else do
          let (remaining, removed) ← pruneLoop maxBytes fails (sortByKey (o.entries listing)) total
          some (some (decide (remaining < total)), removed)

end FileOutput

/-! ### Calls -/

/-- What a call of `send_frame` finds: the system clock in seconds (`none` before the epoch), the
monotonic clock, before and after a segment is opened, whether the file is created, the muxer built
and the sample taken; the directory, and the files in it that cannot be removed. -/
structure Env where
  clock : Option ℕ
  instant : ℕ := 0
  openedAt : ℕ := 0
  created : Bool := true
  built : Bool := true
  written : Bool := true
  listing : Option (List (Option DirEntry)) := some []
  fails : List Char → Bool := fun _ => false

/-- The second that a file's name has. -/
def Env.now (e : Env) : ℕ := e.clock.getD 0

/-- An output, with the files created, the segments finished and the files removed so far. -/
structure Recorder where
  output : FileOutput
  created : List (List Char) := []
  finished : List Muxer := []
  removed : List (List Char) := []

/-- `PauseAction`. -/
inductive PauseAction
  | pass
  | closeAndHold
  deriving DecidableEq

namespace FileOutput

/-- `pause_transition`. -/
def pauseTransition (o : FileOutput) : FileOutput × PauseAction :=
  match o.pauseFlag.getD false, o.wasPaused with
  | true, false => ({ o with wasPaused := true }, .closeAndHold)
  | true, true => (o, .closeAndHold)
  | false, _ => ({ o with wasPaused := false }, .pass)

/-- The dimensions that the capture source has published. -/
@[grind =] def readDimensions (o : FileOutput) : FileOutput :=
  match o.dimensionsHandle with
  | some (some d) => { o with width := d.width, height := d.height, fps := d.fps }
  | _ => o

/-- The segment slot is written; without one nothing is computed for it. -/
def publish (o : FileOutput) (filename : List Char) (now : ℕ) : Option FileOutput :=
  match o.segmentSlot with
  | none => some o
  | some _ => (u64 (now * 1000)).map fun ms => { o with segmentSlot := some (some (filename, ms)) }

/-- `needs_rotation`. -/
def needsRotation (o : FileOutput) (instant : ℕ) : Bool :=
  match o.active with
  | some a => decide ((instant - a.createdAt) / 10 ^ 9 ≥ o.segmentDurationSecs)
  | none => true

/-- `open_now`. -/
def openNow (o : FileOutput) (keyframe : Bool) (instant : ℕ) : Bool :=
  o.needsRotation instant && (keyframe || o.active.isNone)

end FileOutput

namespace Recorder

/-- `close_current_segment`; it always returns `Ok`. -/
def closeCurrentSegment (r : Recorder) : Recorder :=
  match r.output.active with
  | none => r
  | some a =>
      { r with output := { r.output with active := none }, finished := r.finished ++ [a.muxer] }

/-- `open_new_segment`. -/
def openNewSegment (r : Recorder) (e : Env) : Option (Recorder × Except (List Char) Unit) := do
  let r := r.closeCurrentSegment
  let o := r.output.readDimensions
  let filename := o.segmentPath e.now
  let o ← o.publish filename e.now
  if !e.created then
    some ({ r with output := o }, .error ("failed to create segment file ".toList ++ filename))
  else
    let r := { r with created := r.created ++ [filename] }
    if !e.built then some ({ r with output := o }, .error "muxide MuxerBuilder failed".toList)
    else
      let muxer : Muxer := { file := filename, width := o.width, height := o.height, fps := o.fps }
      some ({ r with output := { o with active := some { muxer, createdAt := e.openedAt } } }, .ok ())

/-- The sample is written to the segment that is active, and every thousandth frame the directory is
pruned. -/
def writeFrame (r : Recorder) (keyframe : Bool) (data : List UInt8) (timestamp : ℕ) (e : Env) :
    Option (Recorder × Except (List Char) Unit) :=
  match r.output.active with
  | none => some (r, .error "no active MP4 segment".toList)
  | some a =>
      if !e.written then some (r, .error "muxide write_video failed".toList)
      else
        let sample : Sample :=
          { pts := max ((timestamp : ℚ) / 1000 - r.output.segmentStartPts) 0
            annexB := [0, 0, 0, 1] ++ data
            keyframe }
        let muxer := { a.muxer with samples := a.muxer.samples ++ [sample] }
        let o : FileOutput := { r.output with
          active := some { a with muxer }, frameCount := r.output.frameCount + 1 }
        if o.frameCount % 1000 = 0 then
          (o.pruneOldestIfNeeded e.listing e.fails).map fun p =>
            ({ r with output := o, removed := r.removed ++ p.2.map Entry.path }, .ok ())
        else some ({ r with output := o }, .ok ())

/-- A frame that is let through, of an output that is started.  When a segment cannot be opened the
error is logged, and the code goes on. -/
def takeFrame (r : Recorder) (keyframe : Bool) (data : List UInt8) (timestamp : ℕ) (e : Env) :
    Option (Recorder × Except (List Char) Unit) :=
  if r.output.openNow keyframe e.instant then
    (r.openNewSegment e).bind fun out =>
      let o : FileOutput := { out.1.output with segmentStartPts := (timestamp : ℚ) / 1000 }
      ({ out.1 with output := o } : Recorder).writeFrame keyframe data timestamp e
  else r.writeFrame keyframe data timestamp e

/-- `send_frame`. -/
def sendFrame (r : Recorder) (frame : MediaFrame) (e : Env) :
    Option (Recorder × Except (List Char) Unit) :=
  match frame with
  | .audio _ _ => some (r, .ok ())
  | .video keyframe data timestamp =>
      let (o, action) := r.output.pauseTransition
      let r := { r with output := o }
      match action with
      | .closeAndHold => some (r.closeCurrentSegment, .ok ())
      | .pass =>
          if !r.output.started then some (r, .error "FileOutput not started".toList)
          else r.takeFrame keyframe data timestamp e

/-- `start`; the directory may not be created. -/
def start (r : Recorder) (made : Bool) : Recorder :=
  if made then { r with output := { r.output with started := true } } else r

/-- `stop`. -/
def stop (r : Recorder) : Recorder :=
  let r := r.closeCurrentSegment
  { r with output := { r.output with started := false } }

end Recorder

/-- A call, or a change of what the output shares with the rest of the program. -/
inductive Event
  | start (made : Bool)
  | setPaused (paused : Bool)
  | setDimensions (dimensions : Option StreamDimensions)
  | frame (frame : MediaFrame) (e : Env)
  | stop

/-- What happens; `none` where the code panics. -/
def recorderStep (r : Recorder) : Event → Option Recorder
  | .start made => some (r.start made)
  | .setPaused paused =>
      some { r with output := { r.output with pauseFlag := r.output.pauseFlag.map fun _ => paused } }
  | .setDimensions dimensions =>
      some { r with output := { r.output with
        dimensionsHandle := r.output.dimensionsHandle.map fun _ => dimensions } }
  | .frame frame e => (r.sendFrame frame e).map Prod.fst
  | .stop => some r.stop

/-! ### What the calls leave -/

namespace FileOutput

/-- The files are named alike. -/
def SameNames (o o' : FileOutput) : Prop := o'.path = o.path ∧ o'.cameraId = o.cameraId

theorem SameNames.refl (o : FileOutput) : SameNames o o := ⟨rfl, rfl⟩

theorem SameNames.trans {o o' o'' : FileOutput} (h : SameNames o o') (h' : SameNames o' o'') :
    SameNames o o'' :=
  ⟨h'.1.trans h.1, h'.2.trans h.2⟩

theorem SameNames.segmentPath {o o' : FileOutput} (h : SameNames o o') :
    o'.segmentPath = o.segmentPath := by
  funext now
  rw [FileOutput.segmentPath, FileOutput.segmentPath, filePath, filePath, h.1, h.2]

/-- Inside a pause, and on entering it. -/
theorem pauseTransition_of_paused {o : FileOutput} (h : o.pauseFlag.getD false = true) :
    o.pauseTransition = ({ o with wasPaused := true }, .closeAndHold) := by
  unfold pauseTransition
  rw [h]
  cases hwas : o.wasPaused with
  | true =>
      cases o
      cases hwas
      rfl
  | false => rfl

/-- Outside a pause. -/
theorem pauseTransition_of_not {o : FileOutput} (h : o.pauseFlag.getD false = false) :
    o.pauseTransition = ({ o with wasPaused := false }, .pass) := by
  unfold pauseTransition
  rw [h]

theorem sameNames_readDimensions (o : FileOutput) : SameNames o o.readDimensions := by
  unfold readDimensions
  split <;> exact SameNames.refl _

/-- The dimensions are not about a segment. -/
theorem active_readDimensions (o : FileOutput) : o.readDimensions.active = o.active := by
  unfold readDimensions
  split <;> rfl

/-- What is published is the name, and nothing else changes. -/
theorem publish_spec {o o' : FileOutput} {filename : List Char} {now : ℕ}
    (h : o.publish filename now = some o') :
    SameNames o o' ∧ o'.active = o.active ∧
      ∀ p, o'.segmentSlot = some p → p.map Prod.fst = some filename := by
  unfold publish at h
  split at h
  · rename_i hslot
    cases h
    exact ⟨SameNames.refl _, rfl, fun p hp => by rw [hslot] at hp; cases hp⟩
  · obtain ⟨ms, -, rfl⟩ := Option.map_eq_some_iff.1 h
    exact ⟨SameNames.refl _, rfl, fun p hp => by cases hp; rfl⟩

end FileOutput

open FileOutput

namespace Recorder

variable {r t : Recorder} {e : Env} {result : Except (List Char) Unit}

@[simp] theorem active_closeCurrentSegment (r : Recorder) :
    r.closeCurrentSegment.output.active = none := by
  unfold closeCurrentSegment
  split
  · assumption
  · rfl

@[simp] theorem created_closeCurrentSegment (r : Recorder) :
    r.closeCurrentSegment.created = r.created := by
  unfold closeCurrentSegment
  split <;> rfl

theorem sameNames_closeCurrentSegment (r : Recorder) :
    SameNames r.output r.closeCurrentSegment.output := by
  unfold closeCurrentSegment
  split <;> exact SameNames.refl _

@[simp] theorem finished_closeCurrentSegment (r : Recorder) :
    r.closeCurrentSegment.finished =
      r.finished ++ (r.output.active.map ActiveSegment.muxer).toList := by
  unfold closeCurrentSegment
  cases hactive : r.output.active with
  | none => exact (List.append_nil _).symm
  | some a => rfl

/-- **What opening a segment leaves**: the one before is finished in any case, and the slot, if there
is one, has the new name. -/
structure Opened (r : Recorder) (e : Env) (t : Recorder) (result : Except (List Char) Unit) :
    Prop where
  names : SameNames r.output t.output
  created : t.created = r.created ++ if e.created then [r.output.segmentPath e.now] else []
  finished : t.finished = r.finished ++ (r.output.active.map ActiveSegment.muxer).toList
  slot : ∀ p, t.output.segmentSlot = some p →
    p.map Prod.fst = some (r.output.segmentPath e.now)
  active : t.output.active =
    if e.created && e.built then
      some { muxer := { file := r.output.segmentPath e.now, width := t.output.width,
                        height := t.output.height, fps := t.output.fps }
             createdAt := e.openedAt }
    else none
  succeeds : result = .ok () ↔ e.created = true ∧ e.built = true

theorem opened_of_openNewSegment (h : r.openNewSegment e = some (t, result)) : Opened r e t result := by
  have hnames := (sameNames_closeCurrentSegment r).trans
    (sameNames_readDimensions r.closeCurrentSegment.output)
  simp only [openNewSegment, Option.bind_eq_bind, hnames.segmentPath] at h
  obtain ⟨o, ho, h⟩ := Option.bind_eq_some_iff.1 h
  obtain ⟨hpublish, hactive, hslot⟩ := publish_spec ho
  rw [active_readDimensions, active_closeCurrentSegment] at hactive
  have hnames := hnames.trans hpublish
  cases hcreated : e.created with
  | false =>
      rw [hcreated, Bool.not_false, if_pos rfl, Option.some.injEq, Prod.mk.injEq] at h
      obtain ⟨rfl, rfl⟩ := h
      exact
        { names := hnames
          created := by simp [hcreated]
          finished := finished_closeCurrentSegment r
          slot := hslot
          active := by simpa [hcreated] using hactive
          succeeds := by simp [hcreated] }
  | true =>
      rw [hcreated, Bool.not_true, if_neg Bool.false_ne_true] at h
      cases hbuilt : e.built with
      | false =>
          rw [hbuilt, Bool.not_false, if_pos rfl, Option.some.injEq, Prod.mk.injEq] at h
          obtain ⟨rfl, rfl⟩ := h
          exact
            { names := hnames
              created := by simp [hcreated]
              finished := finished_closeCurrentSegment r
              slot := hslot
              active := by simpa [hbuilt] using hactive
              succeeds := by simp [hbuilt] }
      | true =>
          rw [hbuilt, Bool.not_true, if_neg Bool.false_ne_true, Option.some.injEq,
            Prod.mk.injEq] at h
          obtain ⟨rfl, rfl⟩ := h
          exact
            { names := hnames
              created := by simp [hcreated]
              finished := finished_closeCurrentSegment r
              slot := hslot
              active := by simp [hcreated, hbuilt]
              succeeds := by simp [hcreated, hbuilt] }

/-- Writing a frame creates no file. -/
theorem writeFrame_keeps {keyframe : Bool} {data : List UInt8} {timestamp : ℕ}
    (h : r.writeFrame keyframe data timestamp e = some (t, result)) :
    SameNames r.output t.output ∧ t.created = r.created := by
  unfold writeFrame at h
  split at h
  · cases h
    exact ⟨SameNames.refl _, rfl⟩
  · split at h
    · cases h
      exact ⟨SameNames.refl _, rfl⟩
    · dsimp only at h
      split at h
      · obtain ⟨p, -, h⟩ := Option.map_eq_some_iff.1 h
        cases h
        exact ⟨SameNames.refl _, rfl⟩
      · cases h
        exact ⟨SameNames.refl _, rfl⟩

/-- Inside a pause there is no segment, and a frame is dropped. -/
theorem sendFrame_of_paused (keyframe : Bool) (data : List UInt8) (timestamp : ℕ) (e : Env)
    (h : r.output.pauseFlag.getD false = true) :
    r.sendFrame (.video keyframe data timestamp) e =
      some (closeCurrentSegment { r with output := { r.output with wasPaused := true } }, .ok ()) := by
  rw [sendFrame, pauseTransition_of_paused h]

/-- A frame that is let through. -/
theorem sendFrame_of_not (keyframe : Bool) (data : List UInt8) (timestamp : ℕ) (e : Env)
    (h : r.output.pauseFlag.getD false = false) :
    r.sendFrame (.video keyframe data timestamp) e =
      if !r.output.started then
        some ({ r with output := { r.output with wasPaused := false } },
          .error "FileOutput not started".toList)
      else
        takeFrame { r with output := { r.output with wasPaused := false } } keyframe data timestamp
          e := by
  rw [sendFrame, pauseTransition_of_not h]

end Recorder

end Recording

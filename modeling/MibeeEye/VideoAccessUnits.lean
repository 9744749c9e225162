/-
**Access units for GB28181.**

The capture pipeline hands out one NAL unit at a time, and the video of a GB28181 session goes out in
access units.  `AuGatherer` (`crates/web/src/protocol_runtime.rs`) keeps the units that are no slice, and
with the next slice they are an access unit; it keeps the last eight of them.

Main definitions:

* `Gb28181.AuGatherer.push` — one frame;
* `Gb28181.gather` — some frames, one behind the other;
* `Gb28181.accessUnit` — a slice, and what is kept of the units before it.

Main results:

* `Gb28181.gather_groups` — **the access units are the groups that the slices close**;
* `Gb28181.gather_pictures` — **pictures of one slice come out as they went in**.
-/

import MibeeEye.WholeGroups
import MibeeEye.RtmpOutput

set_option relaxedAutoImplicit false
set_option autoImplicit false

namespace Gb28181

open Rtmp (MediaFrame)

/-! ### The gatherer -/

/-- A NAL unit, which has a first byte. -/
structure Nal where
  data : List UInt8
  nonempty : data ≠ []
  deriving DecidableEq, Repr

/-- The type of a NAL unit. -/
def Nal.type (n : Nal) : UInt8 := n.data.head n.nonempty &&& 0x1F

/-- A slice. -/
def Nal.isVcl (n : Nal) : Bool := decide (1 ≤ n.type ∧ n.type ≤ 5)

/-- `gb28181_rs::frame::Nalu` -/
structure Nalu where
  naluType : UInt8
  isIdr : Bool
  isSps : Bool
  isPps : Bool
  isAud : Bool
  data : List UInt8
  deriving DecidableEq, Repr

/-- `gb28181_rs::frame::AccessUnit`, without the time it was made at. -/
structure AccessUnit where
  isKeyFrame : Bool
  nalus : List Nalu
  deriving DecidableEq, Repr

def Nal.toNalu (n : Nal) : Nalu where
  naluType := n.type
  isIdr := n.type == 5
  isSps := n.type == 7
  isPps := n.type == 8
  isAud := n.type == 9
  data := n.data

/-- `AuGatherer` -/
structure AuGatherer where
  pending : List Nal := []
  deriving DecidableEq, Repr

/-- `AuGatherer::push` -/
def AuGatherer.push (g : AuGatherer) : MediaFrame → Option AccessUnit × AuGatherer
  | .audio _ _ => (none, g)
  | .video keyframe data _ =>
      if h : data = [] then (none, g)
      else
        let n : Nal := ⟨data, h⟩
        if !n.isVcl then
          let pending := g.pending ++ [n]
          (none, ⟨if 8 < pending.length then pending.eraseIdx 0 else pending⟩)
        else
          let nalus := (g.pending ++ [n]).map Nal.toNalu
          let isKeyFrame := keyframe || nalus.any Nalu.isIdr
          let nalus := nalus.filter fun n => !n.data.isEmpty
          if nalus.isEmpty then (none, ⟨[]⟩) else (some ⟨isKeyFrame, nalus⟩, ⟨[]⟩)

/-- Some frames: the access units that come out, and what is kept. -/
def gather : AuGatherer → List MediaFrame → List AccessUnit × AuGatherer
  | g, [] => ([], g)
  | g, f :: fs =>
      let (unit, g) := g.push f
      let (units, g) := gather g fs
      (unit.toList ++ units, g)

/-! ### Groups of NAL units -/

/-- A NAL unit of a video frame, with the frame's mark of a keyframe. -/
structure Marked where
  nal : Nal
  keyframe : Bool
  deriving DecidableEq, Repr

/-- The NAL unit of a frame that has one. -/
@[grind =] def markedOf : MediaFrame → Option Marked
  | .audio _ _ => none
  | .video keyframe data _ => if h : data = [] then none else some ⟨⟨data, h⟩, keyframe⟩

/-- A slice closes an access unit. -/
def Marked.closes (m : Marked) : Bool := m.nal.isVcl

/-- The last eight. -/
def lastEight (ms : List Marked) : List Marked := ms.drop (ms.length - 8)

/-- A slice, and what is kept of the units before it: a key frame if the slice is one, or was marked. -/
def accessUnit (before : List Marked) (slice : Marked) : AccessUnit where
  isKeyFrame := slice.keyframe || slice.nal.type == 5
  nalus := (lastEight before ++ [slice]).map fun m => m.nal.toNalu

variable {g : AuGatherer} {before : List Marked} {m : Marked} {f : MediaFrame} {fs : List MediaFrame}

theorem lastEight_of_le (h : before.length ≤ 8) : lastEight before = before := by
  rw [lastEight, Nat.sub_eq_zero_of_le h, List.drop_zero]

/-- One more unit to keep. -/
theorem lastEight_concat :
    (if 8 < (lastEight before ++ [m]).length then (lastEight before ++ [m]).eraseIdx 0
      else lastEight before ++ [m]) = lastEight (before ++ [m]) := by
  rcases Nat.lt_or_ge before.length 8 with h | h
  · have hle : (before ++ [m]).length ≤ 8 := by
      rw [List.length_append]
      exact h
    rw [lastEight_of_le (Nat.le_of_lt h), lastEight_of_le hle, if_neg (Nat.not_lt.2 hle)]
  · have hlen : (before ++ [m]).length - 8 = before.length - 8 + 1 := by
      rw [List.length_append, List.length_singleton]
      omega
    have hmore : 8 < (lastEight before ++ [m]).length := by
      rw [lastEight, List.length_append, List.length_drop, List.length_singleton]
      omega
    rw [if_pos hmore, List.eraseIdx_zero, lastEight, lastEight, hlen,
      ← List.drop_append_of_le_length (Nat.sub_le _ _), List.tail_drop]

/-- No unit before a slice is a slice that a decoder can begin with. -/
theorem not_isIdr_of_open (h : m.closes = false) : m.nal.toNalu.isIdr = false := by
  rw [Nal.toNalu, beq_eq_false_iff_ne]
  intro hidr
  rw [Marked.closes, Nal.isVcl, decide_eq_false_iff_not, hidr] at h
  exact h (by decide)

/-- No unit is dropped for being empty. -/
theorem filter_nonempty (ms : List Marked) :
    (ms.map fun m => m.nal.toNalu).filter (fun n => !n.data.isEmpty) = ms.map fun m => m.nal.toNalu := by
  rw [List.filter_eq_self]
  intro n hn
  obtain ⟨m, -, rfl⟩ := List.mem_map.1 hn
  simpa [Nal.toNalu] using m.nal.nonempty

/-- The unit that a slice closes. -/
theorem any_isIdr (hbefore : ∀ b ∈ before, b.closes = false) :
    ((lastEight before ++ [m]).map fun m => m.nal.toNalu).any Nalu.isIdr = (m.nal.type == 5) := by
  have hnone : ((lastEight before).map fun m => m.nal.toNalu).any Nalu.isIdr = false := by
    rw [List.any_eq_false]
    intro n hn
    obtain ⟨b, hb, rfl⟩ := List.mem_map.1 hn
    rw [not_isIdr_of_open (hbefore b (List.mem_of_mem_drop hb))]
    simp
  rw [List.map_append, List.any_append, hnone]
  simp [Nal.toNalu]

/-- What a frame does, when the last eight of some units are kept. -/
theorem push_eq (hg : g = ⟨(lastEight before).map Marked.nal⟩)
    (hbefore : ∀ b ∈ before, b.closes = false) :
    g.push f =
      match markedOf f with
      | none => (none, g)
      | some m =>
          if m.closes then (some (accessUnit before m), ⟨[]⟩)
          else (none, ⟨(lastEight (before ++ [m])).map Marked.nal⟩) := by
  cases f with
  | audio data timestamp => rfl
  | video keyframe data timestamp =>
      by_cases hdata : data = []
      · simp [AuGatherer.push, markedOf, hdata]
      · let m : Marked := ⟨⟨data, hdata⟩, keyframe⟩
        have hmarked : markedOf (.video keyframe data timestamp) = some m := dif_neg hdata
        have hkeep : g.pending ++ [m.nal] = (lastEight before ++ [m]).map Marked.nal := by
          rw [hg, List.map_append, List.map_singleton]
        have hnalus : (g.pending ++ [m.nal]).map Nal.toNalu =
            (lastEight before ++ [m]).map fun m => m.nal.toNalu := by
          rw [hkeep, List.map_map]
          rfl
        have hsome : ((lastEight before ++ [m]).map fun m => m.nal.toNalu).isEmpty = false := by simp
        rw [hmarked, AuGatherer.push, dif_neg hdata]
        cases hclose : m.closes with
        | true =>
            have hvcl : m.nal.isVcl = true := hclose
            simp only [m] at hvcl hnalus hsome hclose ⊢
            simp only [hvcl, Bool.not_true, Bool.false_eq_true, if_false, hnalus, any_isIdr hbefore,
              filter_nonempty, hsome, hclose, if_true]
            rfl
        | false =>
            have hvcl : m.nal.isVcl = false := hclose
            have hpending : (if 8 < (g.pending ++ [m.nal]).length then (g.pending ++ [m.nal]).eraseIdx 0
                else g.pending ++ [m.nal]) = (lastEight (before ++ [m])).map Marked.nal := by
              rw [← lastEight_concat, hkeep, List.length_map]
              split
              · rw [List.eraseIdx_zero, List.eraseIdx_zero, List.map_tail]
              · rfl
            simp only [m] at hvcl hpending hclose ⊢
            simp only [hvcl, Bool.not_false, if_true, hpending, hclose, Bool.false_eq_true, if_false]

/-! ### Some frames -/

@[simp] theorem gather_nil (g : AuGatherer) : gather g [] = ([], g) := rfl

theorem gather_cons (g : AuGatherer) (f : MediaFrame) (fs : List MediaFrame) :
    gather g (f :: fs) = ((g.push f).1.toList ++ (gather (g.push f).2 fs).1,
      (gather (g.push f).2 fs).2) := rfl

/-- What comes of some groups and a rest. -/
def outcome (s : List (List Marked × Marked) × List Marked) : List AccessUnit × AuGatherer :=
  (s.1.map fun group => accessUnit group.1 group.2, ⟨(lastEight s.2).map Marked.nal⟩)

/-- The gatherer from where it keeps the last eight of some units. -/
theorem gather_eq (hg : g = ⟨(lastEight before).map Marked.nal⟩)
    (hbefore : ∀ b ∈ before, b.closes = false) (fs : List MediaFrame) :
    gather g fs = outcome ((fs.filterMap markedOf).foldl (Groups.extend Marked.closes) ([], before)) := by
  induction fs generalizing g before with
  | nil => simp [outcome, hg]
  | cons f fs ih =>
      have hpush := push_eq (f := f) hg hbefore
      rw [gather_cons]
      cases hmarked : markedOf f with
      | none =>
          rw [hmarked] at hpush
          simp only at hpush
          rw [hpush, List.filterMap_cons_none hmarked, ih hg hbefore]
          simp
      | some m =>
          rw [hmarked] at hpush
          simp only at hpush
          rw [List.filterMap_cons_some hmarked, List.foldl_cons, Groups.extend]
          by_cases hclose : m.closes = true
          · rw [if_pos hclose] at hpush ⊢
            rw [hpush, Groups.foldl_extend_found,
              @ih ⟨[]⟩ [] rfl fun _ hb => absurd hb List.not_mem_nil]
            simp [outcome]
          · have hopen : ∀ b ∈ before ++ [m], b.closes = false := by
              intro b hb
              rcases List.mem_append.1 hb with hb | hb
              · exact hbefore b hb
              · obtain rfl := List.mem_singleton.1 hb
                exact Bool.eq_false_iff.2 hclose
            rw [if_neg hclose] at hpush ⊢
            rw [hpush, ih rfl hopen]
            simp

/-- The gatherer from the start. -/
theorem gather_start (fs : List MediaFrame) :
    gather {} fs = outcome (Groups.split Marked.closes (fs.filterMap markedOf)) :=
  gather_eq rfl (fun _ hb => absurd hb List.not_mem_nil) fs

/-- **The access units are the groups that the slices close**, each with the last eight units of its
group. -/
theorem gather_groups (fs : List MediaFrame) :
    ∃ groups rest, Groups.IsSplit Marked.closes (fs.filterMap markedOf) groups rest ∧
      gather {} fs = (groups.map fun group => accessUnit group.1 group.2,
        ⟨(lastEight rest).map Marked.nal⟩) :=
  ⟨_, _, Groups.isSplit_split _, gather_start fs⟩

/-- The frames of a picture of one slice: the units before it, and the slice. -/
def pictureFrames (timestamp : ℕ) (picture : List Marked × Marked) : List MediaFrame :=
  (picture.1 ++ [picture.2]).map fun m => .video m.keyframe m.nal.data timestamp

/-- The frames of a picture bring its units. -/
theorem filterMap_pictureFrames (timestamp : ℕ) (picture : List Marked × Marked) :
    (pictureFrames timestamp picture).filterMap markedOf = picture.1 ++ [picture.2] := by
  rw [pictureFrames, List.filterMap_map]
  refine (List.filterMap_congr fun m _ => ?_).trans List.filterMap_some
  simp [markedOf, m.nal.nonempty]

/-- **Pictures of one slice come out as they went in**, if none has more than eight units before its slice:
one access unit for each, with all its units. -/
theorem gather_pictures (pictures : List (ℕ × (List Marked × Marked)))
    (hshape : ∀ p ∈ pictures, p.2.2.closes = true ∧ ∀ m ∈ p.2.1, m.closes = false)
    (hlength : ∀ p ∈ pictures, p.2.1.length ≤ 8) :
    gather {} (pictures.flatMap fun p => pictureFrames p.1 p.2) =
      (pictures.map fun p =>
        { isKeyFrame := p.2.2.keyframe || p.2.2.nal.type == 5
          nalus := (p.2.1 ++ [p.2.2]).map fun m => m.nal.toNalu }, {}) := by
  have hmarked : (pictures.flatMap fun p => pictureFrames p.1 p.2).filterMap markedOf =
      (pictures.map Prod.snd).flatMap fun g => g.1 ++ [g.2] := by
    induction pictures with
    | nil => rfl
    | cons p pictures ih =>
        rw [List.flatMap_cons, List.filterMap_append, List.map_cons, List.flatMap_cons,
          ih (fun q hq => hshape q (List.mem_cons_of_mem p hq))
            fun q hq => hlength q (List.mem_cons_of_mem p hq), filterMap_pictureFrames]
  have hsplit : Groups.split Marked.closes ((pictures.map Prod.snd).flatMap fun g => g.1 ++ [g.2]) =
      (pictures.map Prod.snd, []) := by
    refine Groups.split_flatMap fun g hg => ?_
    obtain ⟨p, hp, rfl⟩ := List.mem_map.1 hg
    exact hshape p hp
  rw [gather_start, hmarked, hsplit, outcome, List.map_map]
  refine Prod.ext ?_ rfl
  refine List.map_congr_left fun p hp => ?_
  simp only [Function.comp, accessUnit, lastEight_of_le (hlength p hp)]

/-- A key frame of the encoder, and the slice behind it. -/
def twoPictures : List (ℕ × (List Marked × Marked)) :=
  [(0, [⟨⟨[0x67, 1], by decide⟩, true⟩, ⟨⟨[0x68, 2], by decide⟩, true⟩], ⟨⟨[0x65, 3], by decide⟩, true⟩),
    (40, [], ⟨⟨[0x41, 4], by decide⟩, false⟩)]

theorem gather_twoPictures :
    gather {} (twoPictures.flatMap fun p => pictureFrames p.1 p.2) =
      (twoPictures.map fun p =>
        { isKeyFrame := p.2.2.keyframe || p.2.2.nal.type == 5
          nalus := (p.2.1 ++ [p.2.2]).map fun m => m.nal.toNalu }, {}) :=
  gather_pictures twoPictures (by decide) (by decide)

end Gb28181

/-
**Fragmented MP4 for the browser.**

`Fmp4Remuxer` in `crates/streaming/src/fmp4.rs` turns the NAL units of a camera into an
initialisation segment and media segments.  It waits until it knows an SPS and a PPS, from the
stream or because it was seeded with them, emits the initialisation segment, and hands every further
NAL unit that is not a parameter set or an SEI to the muxer.  Nothing looks at whether the first of
these belongs to a keyframe.

The muxer is the crate `muxide`, which is a parameter here, and so is the parser that reads the
picture size from an SPS.

Main definitions:

* `Fmp4.FragmentedMuxer` — the operations of the muxer;
* `Fmp4.Fmp4Remuxer`, with `seedSpsPps`, `push` and `flush`;
* `Fmp4.Run`, `Fmp4.step` — a sequence of calls, with everything emitted and everything written;
* `Fmp4.EmissionOrder` — the order in which chunks and samples should come;
* `Fmp4.Known`, `Fmp4.scan` — the first NAL unit after the parameter sets, read off the calls.

Main results:

* `Fmp4.follows_step` — the remuxer follows the scan;
* `Fmp4.emissionOrder_iff` — **the order is right exactly when the first NAL unit after the
  parameter sets is a keyframe slice**.
-/

import MibeeEye.RtmpOutput
import MibeeEye.StepMachine

set_option relaxedAutoImplicit false
set_option autoImplicit false

namespace Fmp4

open Machine Wire Rtmp

/-! ### NAL units -/

/-- `nal_type`: the lower five bits of the first byte. -/
def nalType (byte0 : UInt8) : UInt8 := byte0 &&& 0x1F

/-- `nal_to_avcc`. -/
def nalToAvcc (nal : List UInt8) : List UInt8 := beBytes 4 nal.length ++ nal

/-- `ms_to_ticks`. -/
def msToTicks (ms : ℕ) : ℕ := min (ms * 90000) (2 ^ 64 - 1) / 1000

/-- SEI, SPS and PPS. -/
def isSkipped (type : UInt8) : Bool := 6 ≤ type && type ≤ 8

/-! ### The muxer -/

/-- `FragmentConfig`, as `init_with_sps_pps` fills it. -/
structure FragmentConfig where
  width : UInt32
  height : UInt32
  timescale : UInt32
  fragmentDurationMs : UInt32
  sps : List UInt8
  pps : List UInt8

/-- A sample that is handed to the muxer. -/
structure Sample where
  pts : ℕ
  dts : ℕ
  data : List UInt8
  keyframe : Bool
  deriving DecidableEq, Repr

/-- `FragmentedMuxer`: its operations on a state of type `M`. -/
structure FragmentedMuxer (M : Type) where
  new : FragmentConfig → M
  initSegment : M → List UInt8 × M
  writeVideo : M → Sample → Except String M
  readyToFlush : M → Bool
  flushSegment : M → Option (List UInt8) × M

/-! ### The remuxer -/

/-- `Inner`. -/
structure Inner (M : Type) where
  muxer : M
  initSent : Bool := false
  firstBaseTicks : ℕ := 0
  sawSample : Bool := false
  firstSegmentRetimed : Bool := false

/-- `Fmp4Remuxer`. -/
structure Fmp4Remuxer (M : Type) where
  inner : Option (Inner M) := none
  fragmentDurationMs : UInt32
  pendingSps : Option (List UInt8) := none
  pendingPps : Option (List UInt8) := none

/-- `Fmp4Chunk`. -/
inductive Fmp4Chunk
  | init (bytes : List UInt8)
  | segment (bytes : List UInt8)
  deriving DecidableEq, Repr

/-- The position of the first window that equals `pattern`. -/
def windowPosition (pattern : List UInt8) : List UInt8 → Option ℕ
  | [] => none
  | b :: bytes =>
      if (b :: bytes).take pattern.length = pattern then some 0
      else (windowPosition pattern bytes).map (· + 1)

/-- `retime_first_segment`. -/
def retimeFirstSegment {M : Type} (inner : Inner M) (bytes : List UInt8) :
    Inner M × List UInt8 :=
  if inner.firstSegmentRetimed ∨ ¬ inner.sawSample then (inner, bytes)
  else if inner.firstBaseTicks = 0 then ({ inner with firstSegmentRetimed := true }, bytes)
  else match windowPosition (asBytes "tfdt") bytes with
    | some pos =>
        if bytes.length < pos + 16 then (inner, bytes)
        else
          let v := min (ofBe (slice bytes (pos + 8) (pos + 16)) + inner.firstBaseTicks) (2 ^ 64 - 1)
          ({ inner with firstSegmentRetimed := true },
            bytes.take (pos + 8) ++ beBytes 8 v ++ bytes.drop (pos + 16))
    | none => (inner, bytes)

section Remuxer

variable {M : Type} (mux : FragmentedMuxer M)
  (dimensions : List UInt8 → Option (UInt32 × UInt32))

namespace Fmp4Remuxer

/-- `Fmp4Remuxer::with_fragment_duration_ms`. -/
def withFragmentDurationMs (fragmentDurationMs : UInt32) : Fmp4Remuxer M := { fragmentDurationMs }

/-- `Fmp4Remuxer::seed_sps_pps`. -/
def seedSpsPps (r : Fmp4Remuxer M) (sps pps : List UInt8) : Fmp4Remuxer M :=
  if r.inner.isNone then { r with pendingSps := some sps, pendingPps := some pps } else r

/-- `Fmp4Remuxer::init_with_sps_pps`, which never fails. -/
def initWithSpsPps (r : Fmp4Remuxer M) (sps pps : List UInt8) : Inner M :=
  let size := (dimensions sps).getD (1280, 720)
  { muxer := mux.new {
      width := size.1
      height := size.2
      timescale := 90000
      fragmentDurationMs := r.fragmentDurationMs
      sps := sps
      pps := pps } }

/-- What `push` does with a NAL unit before there is a muxer: it is kept if it is a parameter set,
and the muxer is made as soon as both are there. -/
def harvest (r : Fmp4Remuxer M) (data : List UInt8) (type : UInt8) : Fmp4Remuxer M :=
  let sps := if type = 7 then r.pendingSps <|> some data else r.pendingSps
  let pps := if type = 8 then r.pendingPps <|> some data else r.pendingPps
  match sps, pps with
  | some sps, some pps =>
      { r with
        inner := some (initWithSpsPps mux dimensions r sps pps), pendingSps := none
        pendingPps := none }
  | _, _ => { r with pendingSps := sps, pendingPps := pps }

end Fmp4Remuxer

/-- What a call of `push` leads to: the chunks it returns or its error, and the sample that it hands
to the muxer. -/
structure Pushed where
  result : Except String (List Fmp4Chunk) := .ok []
  sample : Option Sample := none

/-- `push`, once there is a muxer: the initialisation segment, if it has not been emitted. -/
def sendInit (inner : Inner M) : Inner M × List Fmp4Chunk :=
  if inner.initSent then (inner, [])
  else
    let r := mux.initSegment inner.muxer
    ({ inner with muxer := r.2, initSent := true }, [.init r.1])

/-- A segment is flushed if the muxer is ready. -/
def flushReady (inner : Inner M) : Inner M × List Fmp4Chunk :=
  if mux.readyToFlush inner.muxer then
    match mux.flushSegment inner.muxer with
    | (some segment, muxer) =>
        let r := retimeFirstSegment { inner with muxer := muxer } segment
        (r.1, [.segment r.2])
    | (none, muxer) => ({ inner with muxer := muxer }, [])
  else (inner, [])

/-- The sample of a NAL unit. -/
def sampleOf (data : List UInt8) (keyframe : Bool) (timestamp : ℕ) : Sample :=
  { pts := msToTicks timestamp, dts := msToTicks timestamp, data := nalToAvcc data, keyframe }

/-- `push`, once there is a muxer and the NAL unit is to be a sample. -/
def writeSample (inner : Inner M) (data : List UInt8) (keyframe : Bool) (timestamp : ℕ) :
    Inner M × Pushed :=
  let out := sendInit mux inner
  let sample := sampleOf data keyframe timestamp
  let inner := if out.1.sawSample then out.1
    else { out.1 with sawSample := true, firstBaseTicks := msToTicks timestamp }
  match mux.writeVideo inner.muxer sample with
  | .error e => (inner, { result := .error s!"fMP4 write_video failed: {e}", sample := some sample })
  | .ok muxer =>
      let flushed := flushReady mux { inner with muxer := muxer }
      (flushed.1, { result := .ok (out.2 ++ flushed.2), sample := some sample })

/-- `push`, once there is a muxer: a parameter set or an SEI is skipped. -/
def pushInner (inner : Inner M) (byte0 : UInt8) (rest : List UInt8) (keyframe : Bool)
    (timestamp : ℕ) : Inner M × Pushed :=
  if isSkipped (nalType byte0) then
    let out := sendInit mux inner
    (out.1, { result := .ok out.2 })
  else writeSample mux inner (byte0 :: rest) keyframe timestamp

namespace Fmp4Remuxer

/-- `Fmp4Remuxer::push`.  An empty NAL unit has no type, and the access to its first byte panics:
there is no result. -/
def push (r : Fmp4Remuxer M) : MediaFrame → Option (Fmp4Remuxer M × Pushed)
  | .audio _ _ => some (r, {})
  | .video _ [] _ => none
  | .video keyframe (byte0 :: rest) timestamp =>
      let r := if r.inner.isNone then r.harvest mux dimensions (byte0 :: rest) (nalType byte0) else r
      match r.inner with
      | none => some (r, {})
      | some inner =>
          let out := pushInner mux inner byte0 rest keyframe timestamp
          some ({ r with inner := some out.1 }, out.2)

/-- `Fmp4Remuxer::flush`. -/
def flush (r : Fmp4Remuxer M) : Fmp4Remuxer M × Option (List UInt8) :=
  match r.inner with
  | none => (r, none)
  | some inner =>
      match mux.flushSegment inner.muxer with
      | (none, muxer) => ({ r with inner := some { inner with muxer := muxer } }, none)
      | (some segment, muxer) =>
          let out := retimeFirstSegment { inner with muxer := muxer } segment
          ({ r with inner := some out.1 }, some out.2)

end Fmp4Remuxer

/-! ### Sequences of calls -/

/-- A call of one of the methods. -/
inductive Op
  | seed (sps pps : List UInt8)
  | push (frame : MediaFrame)
  | flush

/-- The frame that is pushed is not empty. -/
def Op.NonEmpty : Op → Prop
  | .push (.video _ data _) => data ≠ []
  | _ => True

/-- A remuxer, with all chunks emitted so far, all samples handed to the muxer, and whether a call
has failed. -/
structure Run (M : Type) where
  remuxer : Fmp4Remuxer M
  chunks : List Fmp4Chunk := []
  samples : List Sample := []
  failed : Bool := false

/-- The chunks that a call returns. -/
def Pushed.chunks (p : Pushed) : List Fmp4Chunk :=
  match p.result with
  | .ok chunks => chunks
  | .error _ => []

/-- Whether a call fails. -/
def Pushed.failed (p : Pushed) : Bool :=
  match p.result with
  | .ok _ => false
  | .error _ => true

/-- **One call.** -/
def step (run : Run M) : Op → Option (Run M)
  | .seed sps pps => some { run with remuxer := run.remuxer.seedSpsPps sps pps }
  | .push frame =>
      (run.remuxer.push mux dimensions frame).map fun r =>
        { remuxer := r.1
          chunks := run.chunks ++ r.2.chunks
          samples := run.samples ++ r.2.sample.toList
          failed := run.failed || r.2.failed }
  | .flush =>
      let r := run.remuxer.flush mux
      some { run with remuxer := r.1, chunks := run.chunks ++ (r.2.map .segment).toList }

/-- A new remuxer. -/
def Run.new (fragmentDurationMs : UInt32) : Run M :=
  { remuxer := .withFragmentDurationMs fragmentDurationMs }

end Remuxer

/-! ### The order that is wanted -/

/-- The type of the NAL unit of a sample, after its length. -/
def Sample.nalType (s : Sample) : UInt8 := Fmp4.nalType (s.data.getD 4 0)

/-- There is at most one initialisation segment; it comes first, and without it no segment, unless a
call has failed; no sample is a parameter set or an SEI; the first is a keyframe slice. -/
structure EmissionOrder {M : Type} (run : Run M) : Prop where
  init_once : ∀ c ∈ run.chunks.tail, ∃ bytes, c = .segment bytes
  init_first : run.failed = false → ∀ bytes, .segment bytes ∈ run.chunks →
    ∃ bytes, run.chunks.head? = some (.init bytes)
  not_skipped : ∀ s ∈ run.samples, isSkipped s.nalType = false
  keyframe_first : ∀ s ∈ run.samples.head?, s.keyframe = true ∧ s.nalType = 5

/-- What the calls so far say: whether the parameter sets are known, and the keyframe flag and type
of the first NAL unit to be a sample after that. -/
structure Known where
  sps : Bool := false
  pps : Bool := false
  first : Option (Bool × UInt8) := none

/-- The calls are scanned from the first to the last. -/
@[grind =] def scan (k : Known) : Op → Known
  | .seed _ _ => { k with sps := true, pps := true }
  | .push (.video keyframe (byte0 :: _) _) =>
      let type := nalType byte0
      let sps := k.sps || type == 7
      let pps := k.pps || type == 8
      { sps, pps,
        first := if sps && pps && !isSkipped type then k.first <|> some (keyframe, type)
          else k.first }
  | .push (.video _ [] _) => k
  | .push (.audio _ _) => k
  | .flush => k

/-! ### The remuxer follows the scan -/

/-- The chunks are in order. -/
def Ordered (chunks : List Fmp4Chunk) (failed : Bool) : Prop :=
  (∀ c ∈ chunks.tail, ∃ bytes, c = .segment bytes) ∧
    (failed = false → ∃ bytes, chunks.head? = some (.init bytes))

/-- Segments may follow. -/
theorem Ordered.append {chunks segments : List Fmp4Chunk} {failed failed' : Bool}
    (h : Ordered chunks failed) (hsegments : ∀ c ∈ segments, ∃ bytes, c = .segment bytes)
    (hfailed : failed' = false → failed = false) : Ordered (chunks ++ segments) failed' := by
  cases chunks with
  | nil =>
      refine ⟨fun c hc => hsegments c (List.mem_of_mem_tail hc), ?_⟩
      intro hf
      obtain ⟨bytes, hbytes⟩ := h.2 (hfailed hf)
      cases hbytes
  | cons first chunks =>
      refine ⟨?_, fun hf => h.2 (hfailed hf)⟩
      intro c hc
      rcases List.mem_append.1 hc with hc | hc
      · exact h.1 c hc
      · exact hsegments c hc

/-- The initialisation segment comes first. -/
theorem ordered_init (bytes : List UInt8) {segments : List Fmp4Chunk} (failed : Bool)
    (hsegments : ∀ c ∈ segments, ∃ bytes, c = .segment bytes) :
    Ordered (.init bytes :: segments) failed :=
  ⟨hsegments, fun _ => ⟨bytes, rfl⟩⟩

/-- The samples begin as the scan says, and none of them is a parameter set. -/
def SamplesFollow (samples : List Sample) (first : Option (Bool × UInt8)) : Prop :=
  samples.head?.map (fun s => (s.keyframe, s.nalType)) = first ∧
    ∀ s ∈ samples, isSkipped s.nalType = false

theorem SamplesFollow.append {samples : List Sample} {first : Option (Bool × UInt8)}
    (h : SamplesFollow samples first) {s : Sample} (hs : isSkipped s.nalType = false) :
    SamplesFollow (samples ++ [s]) (first <|> some (s.keyframe, s.nalType)) := by
  refine ⟨?_, ?_⟩
  · rw [← h.1]
    cases samples with
    | nil => rfl
    | cons t samples => rfl
  · intro t ht
    rcases List.mem_append.1 ht with ht | ht
    · exact h.2 t ht
    · rw [List.mem_singleton.1 ht]
      exact hs

section Follows

variable {M : Type} {mux : FragmentedMuxer M} {dimensions : List UInt8 → Option (UInt32 × UInt32)}

/-- **The invariant**: what the remuxer holds and has done is what the scan says. -/
def Follows (run : Run M) (k : Known) : Prop :=
  match run.remuxer.inner with
  | none => k.sps = run.remuxer.pendingSps.isSome ∧ k.pps = run.remuxer.pendingPps.isSome ∧
      k.first = none ∧ run.chunks = [] ∧ run.samples = []
  | some inner => k.sps = true ∧ k.pps = true ∧ inner.initSent = true ∧
      Ordered run.chunks run.failed ∧ SamplesFollow run.samples k.first

@[simp] theorem retimeFirstSegment_initSent (inner : Inner M) (bytes : List UInt8) :
    (retimeFirstSegment inner bytes).1.initSent = inner.initSent := by
  unfold retimeFirstSegment
  split
  · rfl
  · split
    · rfl
    · split
      · dsimp only
        split <;> rfl
      · rfl

/-- **What `sendInit` does.** -/
theorem sendInit_spec (mux : FragmentedMuxer M) (inner : Inner M) :
    (sendInit mux inner).1.initSent = true ∧
      (inner.initSent = true ∧ (sendInit mux inner).2 = [] ∨
        inner.initSent = false ∧ ∃ bytes, (sendInit mux inner).2 = [.init bytes]) := by
  unfold sendInit
  cases h : inner.initSent with
  | true => simp [h]
  | false => simp

theorem flushReady_spec (mux : FragmentedMuxer M) (inner : Inner M) :
    (flushReady mux inner).1.initSent = inner.initSent ∧
      ∀ c ∈ (flushReady mux inner).2, ∃ bytes, c = .segment bytes := by
  unfold flushReady
  split
  · split
    · simp
    · simp
  · simp

/-- **What `writeSample` does**: the sample is handed to the muxer; then the call fails, or returns
the initialisation segment if it is due and at most segments after it. -/
theorem writeSample_spec (mux : FragmentedMuxer M) (inner : Inner M) (data : List UInt8)
    (keyframe : Bool) (timestamp : ℕ) :
    (writeSample mux inner data keyframe timestamp).1.initSent = true ∧
    (writeSample mux inner data keyframe timestamp).2.sample =
      some (sampleOf data keyframe timestamp) ∧
    ((writeSample mux inner data keyframe timestamp).2.failed = true ∧
        (writeSample mux inner data keyframe timestamp).2.chunks = [] ∨
      ∃ segments, (∀ c ∈ segments, ∃ bytes, c = .segment bytes) ∧
        (writeSample mux inner data keyframe timestamp).2.failed = false ∧
        (writeSample mux inner data keyframe timestamp).2.chunks =
          (sendInit mux inner).2 ++ segments) := by
  have hinit := (sendInit_spec mux inner).1
  unfold writeSample
  dsimp only
  generalize hfirst : (if (sendInit mux inner).1.sawSample then (sendInit mux inner).1
    else { (sendInit mux inner).1 with
      sawSample := true, firstBaseTicks := msToTicks timestamp }) = first
  have hfirstSent : first.initSent = true := by
    rw [← hfirst]
    split <;> exact hinit
  cases mux.writeVideo first.muxer (sampleOf data keyframe timestamp) with
  | error e => exact ⟨hfirstSent, rfl, Or.inl ⟨rfl, rfl⟩⟩
  | ok muxer =>
      obtain ⟨hsent, hsegments⟩ := flushReady_spec mux { first with muxer := muxer }
      exact ⟨hsent.trans hfirstSent, rfl, Or.inr ⟨_, hsegments, rfl, rfl⟩⟩

/-- The parameter sets that are known after a NAL unit; the muxer is made when both are. -/
theorem harvest_cases (mux : FragmentedMuxer M)
    (dimensions : List UInt8 → Option (UInt32 × UInt32)) {r : Fmp4Remuxer M} (h : r.inner = none)
    (data : List UInt8) (type : UInt8) :
    (∃ inner, (r.harvest mux dimensions data type).inner = some inner ∧ inner.initSent = false ∧
      (r.pendingSps.isSome || type == 7) = true ∧ (r.pendingPps.isSome || type == 8) = true) ∨
    ((r.harvest mux dimensions data type).inner = none ∧
      (r.harvest mux dimensions data type).pendingSps.isSome =
        (r.pendingSps.isSome || type == 7) ∧
      (r.harvest mux dimensions data type).pendingPps.isSome =
        (r.pendingPps.isSome || type == 8) ∧
      ((r.pendingSps.isSome || type == 7) && (r.pendingPps.isSome || type == 8)) = false) := by
  have hkeep : ∀ (o : Option (List UInt8)) (t : UInt8),
      (if type = t then o <|> some data else o).isSome = (o.isSome || type == t) := by
    intro o t
    by_cases ht : type = t
    · cases o <;> simp [ht]
    · simp [ht]
  rw [← hkeep r.pendingSps 7, ← hkeep r.pendingPps 8]
  unfold Fmp4Remuxer.harvest
  dsimp only
  split
  · rename_i sps pps hsps hpps
    exact Or.inl ⟨_, rfl, rfl, by rw [hsps]; rfl, by rw [hpps]; rfl⟩
  · rename_i hnot
    refine Or.inr ⟨h, rfl, rfl, ?_⟩
    cases hsps : (if type = 7 then r.pendingSps <|> some data else r.pendingSps) with
    | none => rfl
    | some sps =>
        cases hpps : (if type = 8 then r.pendingPps <|> some data else r.pendingPps) with
        | none => rfl
        | some pps => exact absurd hpps (hnot sps pps hsps)

/-- The muxer has just been made, or it has been at work. -/
def Ready (inner : Inner M) (chunks : List Fmp4Chunk) (failed : Bool) : Prop :=
  inner.initSent = true ∧ Ordered chunks failed ∨ inner.initSent = false ∧ chunks = []

/-- What is emitted then is in order. -/
theorem Ready.ordered {inner : Inner M} {chunks segments : List Fmp4Chunk} {failed failed' : Bool}
    (h : Ready inner chunks failed) (mux : FragmentedMuxer M)
    (hsegments : ∀ c ∈ segments, ∃ bytes, c = .segment bytes)
    (hfailed : failed' = false → failed = false) :
    Ordered (chunks ++ ((sendInit mux inner).2 ++ segments)) failed' := by
  rcases h with ⟨hsent, hordered⟩ | ⟨hsent, rfl⟩
  · rcases (sendInit_spec mux inner).2 with ⟨-, hnil⟩ | ⟨hnot, -⟩
    · rw [hnil]
      exact hordered.append hsegments hfailed
    · rw [hsent] at hnot
      cases hnot
  · rcases (sendInit_spec mux inner).2 with ⟨hnot, -⟩ | ⟨-, bytes, hinit⟩
    · rw [hsent] at hnot
      cases hnot
    · rw [hinit]
      exact ordered_init bytes failed' hsegments

theorem nalType_sampleOf (byte0 : UInt8) (rest : List UInt8) (keyframe : Bool) (timestamp : ℕ) :
    (sampleOf (byte0 :: rest) keyframe timestamp).nalType = nalType byte0 := by
  have hbyte : (nalToAvcc (byte0 :: rest)).getD 4 0 = byte0 := by
    rw [nalToAvcc, List.getD_eq_getElem?_getD, List.getElem?_append_right (by simp),
      length_beBytes]
    rfl
  rw [Sample.nalType, sampleOf, hbyte]

/-- **What `push` does once there is a muxer.** -/
theorem pushInner_spec (mux : FragmentedMuxer M) {inner : Inner M} (byte0 : UInt8)
    (rest : List UInt8) (keyframe : Bool) (timestamp : ℕ) {chunks : List Fmp4Chunk} {failed : Bool}
    {samples : List Sample} {first : Option (Bool × UInt8)} (hready : Ready inner chunks failed)
    (hsamples : SamplesFollow samples first) :
    (pushInner mux inner byte0 rest keyframe timestamp).1.initSent = true ∧
    Ordered (chunks ++ (pushInner mux inner byte0 rest keyframe timestamp).2.chunks)
      (failed || (pushInner mux inner byte0 rest keyframe timestamp).2.failed) ∧
    SamplesFollow
      (samples ++ (pushInner mux inner byte0 rest keyframe timestamp).2.sample.toList)
      (if !isSkipped (nalType byte0) then first <|> some (keyframe, nalType byte0) else first) := by
  cases hskip : isSkipped (nalType byte0) with
  | true =>
      rw [pushInner, if_pos hskip]
      refine ⟨(sendInit_spec mux inner).1, ?_, ?_⟩
      · have hnone : ∀ c ∈ ([] : List Fmp4Chunk), ∃ bytes, c = .segment bytes := by simp
        have hordered := hready.ordered mux hnone id
        rw [List.append_nil] at hordered
        simpa [Pushed.chunks, Pushed.failed] using hordered
      · simpa using hsamples
  | false =>
      rw [pushInner, if_neg (by rw [hskip]; exact Bool.false_ne_true)]
      obtain ⟨hsent, hsample, hresult⟩ :=
        writeSample_spec mux inner (byte0 :: rest) keyframe timestamp
      refine ⟨hsent, ?_, ?_⟩
      · rcases hresult with ⟨hfailed, hnil⟩ | ⟨segments, hsegments, hok, hchunks⟩
        · rw [hfailed, hnil, List.append_nil, Bool.or_true]
          have htail : ∀ c ∈ chunks.tail, ∃ bytes, c = .segment bytes := by
            rcases hready with ⟨-, hordered⟩ | ⟨-, rfl⟩
            · exact hordered.1
            · simp
          exact ⟨htail, fun h => by cases h⟩
        · rw [hok, hchunks, Bool.or_false]
          exact hready.ordered mux hsegments id
      · rw [hsample]
        have hfollow := hsamples.append (s := sampleOf (byte0 :: rest) keyframe timestamp)
          (by rw [nalType_sampleOf]; exact hskip)
        rwa [nalType_sampleOf] at hfollow

/-- A NAL unit that is pushed. -/
theorem follows_video {run : Run M} {k : Known} (h : Follows run k) (keyframe : Bool)
    (byte0 : UInt8) (rest : List UInt8) (timestamp : ℕ) :
    ∃ run', step mux dimensions run (.push (.video keyframe (byte0 :: rest) timestamp)) =
        some run' ∧
      Follows run' (scan k (.push (.video keyframe (byte0 :: rest) timestamp))) := by
  cases hinner : run.remuxer.inner with
  | some inner =>
      simp only [Follows, hinner] at h
      obtain ⟨hsps, hpps, hsent, hordered, hsamples⟩ := h
      have hpush := pushInner_spec mux byte0 rest keyframe timestamp
        (Or.inl ⟨hsent, hordered⟩ : Ready inner run.chunks run.failed) hsamples
      refine ⟨_, by simp [step, Fmp4Remuxer.push, hinner]; rfl, ?_⟩
      simpa [Follows, scan, hsps, hpps] using hpush
  | none =>
      simp only [Follows, hinner] at h
      obtain ⟨hsps, hpps, hfirst, hchunks, hsamples⟩ := h
      rcases harvest_cases mux dimensions hinner (byte0 :: rest) (nalType byte0) with
        ⟨inner, hmade, hfresh, hs, hp⟩ | ⟨hwait, hs, hp, hnot⟩
      · -- the second parameter set has been found, or both were seeded
        have hpush := pushInner_spec mux byte0 rest keyframe timestamp
          (Or.inr ⟨hfresh, hchunks⟩ : Ready inner run.chunks run.failed)
          (⟨by rw [hsamples]; rfl, by simp [hsamples]⟩ : SamplesFollow run.samples none)
        refine ⟨_, by simp [step, Fmp4Remuxer.push, hinner, hmade]; rfl, ?_⟩
        rw [← hsps] at hs
        rw [← hpps] at hp
        simpa [Follows, scan, hs, hp, hfirst] using hpush
      · refine ⟨_, by simp [step, Fmp4Remuxer.push, hinner, hwait]; rfl, ?_⟩
        rw [← hsps] at hs hnot
        rw [← hpps] at hp hnot
        simp [Follows, scan, hwait, hs, hp, hnot, hfirst, hchunks, hsamples, Pushed.chunks]

/-- **A call returns and keeps the invariant.** -/
theorem follows_step (mux : FragmentedMuxer M)
    (dimensions : List UInt8 → Option (UInt32 × UInt32)) {run : Run M} {k : Known} {op : Op}
    (h : Follows run k) (hne : op.NonEmpty) :
    ∃ run', step mux dimensions run op = some run' ∧ Follows run' (scan k op) := by
  cases op with
  | seed sps pps =>
      refine ⟨_, rfl, ?_⟩
      cases hinner : run.remuxer.inner with
      | none =>
          simp only [Follows, hinner] at h
          simp [Follows, scan, Fmp4Remuxer.seedSpsPps, hinner, h]
      | some inner =>
          simp only [Follows, hinner] at h
          simp [Follows, scan, Fmp4Remuxer.seedSpsPps, hinner, h]
  | push frame =>
      cases frame with
      | audio data timestamp =>
          refine ⟨_, rfl, ?_⟩
          simpa [Follows, scan, Pushed.chunks, Pushed.failed] using h
      | video keyframe data timestamp =>
          cases data with
          | nil => exact absurd rfl hne
          | cons byte0 rest => exact follows_video h keyframe byte0 rest timestamp
  | flush =>
      refine ⟨_, rfl, ?_⟩
      cases hinner : run.remuxer.inner with
      | none =>
          simp only [Follows, hinner] at h
          simpa [Follows, scan, Fmp4Remuxer.flush, hinner] using h
      | some inner =>
          simp only [Follows, hinner] at h
          obtain ⟨hsps, hpps, hsent, hordered, hsamples⟩ := h
          unfold Fmp4Remuxer.flush
          rw [hinner]
          dsimp only
          split
          · simpa [Follows, scan, hsps, hpps, hsent] using ⟨hordered, hsamples⟩
          · rename_i segment muxer hflush
            have hsegment : ∀ c ∈ [Fmp4Chunk.segment
                (retimeFirstSegment { inner with muxer := muxer } segment).2],
                ∃ bytes, c = .segment bytes := by
              simp
            refine ⟨hsps, hpps, ?_, hordered.append hsegment id, hsamples⟩
            rw [retimeFirstSegment_initSent]
            exact hsent

/-- And so does every sequence of calls. -/
theorem follows_exec (mux : FragmentedMuxer M)
    (dimensions : List UInt8 → Option (UInt32 × UInt32)) {ops : List Op} :
    ∀ {run : Run M} {k : Known}, Follows run k → (∀ op ∈ ops, op.NonEmpty) →
      ∃ run', exec (step mux dimensions) run ops = some run' ∧ Follows run' (ops.foldl scan k) := by
  induction ops with
  | nil =>
      intro run k h _
      exact ⟨run, rfl, h⟩
  | cons op ops ih =>
      intro run k h hne
      obtain ⟨run', hstep, hfollows⟩ :=
        follows_step mux dimensions h (hne op List.mem_cons_self)
      obtain ⟨run'', hexec, hfollows'⟩ := ih hfollows fun o ho => hne o (List.mem_cons_of_mem _ ho)
      refine ⟨run'', ?_, hfollows'⟩
      rw [exec_cons, hstep]
      exact hexec

/-- A run that follows the scan is in order exactly when the scan begins with a keyframe slice. -/
theorem Follows.order_iff_first {run : Run M} {k : Known} (h : Follows run k) :
    EmissionOrder run ↔ ∀ f ∈ k.first, f = (true, 5) := by
  unfold Follows at h
  split at h
  · obtain ⟨-, -, hfirst, hchunks, hsamples⟩ := h
    rw [hfirst]
    refine iff_of_true ⟨?_, ?_, ?_, ?_⟩ (fun f hf => by cases hf) <;> simp [hchunks, hsamples]
  · obtain ⟨-, -, -, hordered, hhead, hskipped⟩ := h
    constructor
    · intro horder f hf
      rw [← hhead] at hf
      obtain ⟨s, hs, rfl⟩ := Option.map_eq_some_iff.1 hf
      obtain ⟨hkeyframe, htype⟩ := horder.keyframe_first s hs
      rw [hkeyframe, htype]
    · intro hfirst
      refine ⟨hordered.1, fun hok _ _ => hordered.2 hok, hskipped, ?_⟩
      intro s hs
      have hpair := hfirst (s.keyframe, s.nalType) (by
        rw [← hhead, hs]
        rfl)
      exact Prod.mk.inj hpair

/-- **Every sequence of calls is in order exactly when the first NAL unit after the parameter sets
that is not skipped is a keyframe slice.** -/
theorem emissionOrder_iff (mux : FragmentedMuxer M)
    (dimensions : List UInt8 → Option (UInt32 × UInt32)) (fragmentDurationMs : UInt32)
    (ops : List Op) (hne : ∀ op ∈ ops, op.NonEmpty) :
    ∃ run, exec (step mux dimensions) (Run.new fragmentDurationMs) ops = some run ∧
      (EmissionOrder run ↔ ∀ f ∈ (ops.foldl scan {}).first, f = (true, 5)) := by
  have hnew : Follows (Run.new fragmentDurationMs : Run M) {} := ⟨rfl, rfl, rfl, rfl, rfl⟩
  obtain ⟨run, hexec, hfollows⟩ := follows_exec mux dimensions hnew hne
  exact ⟨run, hexec, hfollows.order_iff_first⟩

end Follows

/-! ### A client that joins between two keyframes -/

/-- A muxer that buffers what it is given, and is ready from the second sample on. -/
def bufferMuxer : FragmentedMuxer (List Sample) where
  new := fun _ => []
  initSegment := fun m => (asBytes "ftypmoov", m)
  writeVideo := fun m s => .ok (m ++ [s])
  readyToFlush := fun m => decide (2 ≤ m.length)
  flushSegment := fun m =>
    if m = [] then (none, m) else (some (asBytes "moofmdat" ++ m.flatMap Sample.data), [])

/-- The calls for a client that joins at a keyframe. -/
def joinAtKeyframe : List Op :=
  [.push (.video true [0x67, 0x42, 0x00, 0x0A] 0), .push (.video true [0x68, 0xCE] 0),
    .push (.video true [0x65, 0x88] 0), .push (.video false [0x41, 0x9A] 33), .flush]

/-- The calls for a client that is seeded with the parameter sets and joins at another slice. -/
def joinAtSlice : List Op :=
  [.seed [0x67, 0x42, 0x00, 0x0A] [0x68, 0xCE], .push (.video false [0x41, 0x9A] 33)]

/-- The first is served in order. -/
theorem emissionOrder_joinAtKeyframe :
    ∃ run, exec (step bufferMuxer fun _ => none) (Run.new 1000) joinAtKeyframe = some run ∧
      run.samples.length = 2 ∧ EmissionOrder run := by
  obtain ⟨run, hexec, hiff⟩ := emissionOrder_iff bufferMuxer (fun _ => none) 1000 joinAtKeyframe
    (by simp [joinAtKeyframe, Op.NonEmpty])
  refine ⟨run, hexec, ?_, hiff.2 (by decide +kernel)⟩
  have hsamples : (exec (step bufferMuxer fun _ => none) (Run.new 1000) joinAtKeyframe).map
      (fun run => run.samples.length) = some 2 := by
    decide +kernel
  rw [hexec] at hsamples
  exact Option.some.inj hsamples

/-- The second is served a slice that it cannot decode. -/
theorem not_emissionOrder_joinAtSlice :
    ∃ run, exec (step bufferMuxer fun _ => none) (Run.new 1000) joinAtSlice = some run ∧
      run.samples = [sampleOf [0x41, 0x9A] false 33] ∧ ¬ EmissionOrder run := by
  refine ⟨_, rfl, rfl, ?_⟩
  intro horder
  have hkeyframe := (horder.keyframe_first (sampleOf [0x41, 0x9A] false 33) rfl).1
  cases hkeyframe

end Fmp4

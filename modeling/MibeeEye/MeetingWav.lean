/-
**The recording of a meeting.**

`crates/streaming/src/meeting.rs` writes a meeting as a WAV file: the header comes first, with sizes of
zero, and is written again with the sizes when the recording ends.  `crates/streaming/src/audio_ai/wav.rs`
reads WAV files, chunk by chunk.  A file whose recording was cut off has a chunk of audio that is empty,
and the reader takes the audio behind it for chunks.

Samples are exact rationals.  What the bits of an `f32` count as is a parameter.

Main definitions:

* `MeetingWav.WavWriter` — the writer, with the file it has written;
* `MeetingWav.parseWav` — the reader;
* `MeetingWav.TornReads` — a file that was cut off gives a beginning of the samples, and none from another
  place;
* `MeetingWav.Harmless` — what the audio looks like as chunks, where that is so.

Main results:

* `MeetingWav.parseWav_finalize` — a recording that was ended is read as it was written;
* `MeetingWav.tornReads_iff` — exactly what is read of one that was cut off;
* `MeetingWav.wav_faithful` — **both together**.
-/

import Mathlib.Algebra.Order.Field.Rat
import MibeeEye.FixedWidth
import MibeeEye.ListCut
import MibeeEye.RiffChunks
import MibeeEye.WholeBlocks

set_option relaxedAutoImplicit false
set_option autoImplicit false

namespace MeetingWav

open FixedWidth Wire Riff

/-! ### Tags -/

/-- `b"RIFF"` -/
def riffTag : List UInt8 := [0x52, 0x49, 0x46, 0x46]

/-- `b"WAVE"` -/
def waveTag : List UInt8 := [0x57, 0x41, 0x56, 0x45]

/-- `b"fmt "` -/
def fmtTag : List UInt8 := [0x66, 0x6d, 0x74, 0x20]

/-- `b"data"` -/
def dataTag : List UInt8 := [0x64, 0x61, 0x74, 0x61]

/-! ### The writer -/

/-- `WavWriter`, with what its file holds. -/
structure WavWriter where
  file : List UInt8
  samples : ℕ
  deriving DecidableEq

/-- The body of the `fmt ` chunk: PCM, mono, 16 kHz, the byte rate, the block align and the bits. -/
def fmtBody : List UInt8 :=
  leBytes 2 1 ++ leBytes 2 1 ++ leBytes 4 16000 ++ leBytes 4 (16000 * 2) ++ leBytes 2 2 ++ leBytes 2 16

/-- **`WavWriter::header`**; `none` is a panic. -/
def header (build : Build) (samples : ℕ) : Option (List UInt8) :=
  (build.result 64 (samples * 2)).bind fun bytes =>
    let dataLen := bytes % 2 ^ 32
    (build.result 32 (36 + dataLen)).map fun riffLen =>
      riffTag ++ leBytes 4 riffLen ++ waveTag ++ fmtTag ++ leBytes 4 16 ++ fmtBody ++ dataTag ++
        leBytes 4 dataLen

/-- `s.to_le_bytes()` -/
def toLeBytes (s : Int16) : List UInt8 := leBytes 2 s.toUInt16.toNat

/-- **`WavWriter::create`** -/
def WavWriter.create (build : Build) : Option WavWriter := (header build 0).map fun h => ⟨h, 0⟩

/-- **`WavWriter::write_i16`** -/
def WavWriter.writeI16 (w : WavWriter) (samples : List Int16) : WavWriter :=
  ⟨w.file ++ samples.flatMap toLeBytes, w.samples + samples.length⟩

/-- **`WavWriter::finalize`**: the header is written over the beginning of the file. -/
def WavWriter.finalize (build : Build) (w : WavWriter) : Option (List UInt8) :=
  (header build w.samples).map fun h => h ++ w.file.drop h.length

/-- The file of a writer after successive calls of `write_i16`. -/
def record (build : Build) (writes : List (List Int16)) : Option WavWriter :=
  (WavWriter.create build).map fun w => writes.foldl WavWriter.writeI16 w

/-! ### The reader -/

/-- `WavData` -/
structure WavData where
  sampleRate : ℕ
  samples : List ℚ
  deriving DecidableEq

/-- The variables of the loop of `parse_wav`. -/
structure Reader where
  /-- Codec, channels and rate. -/
  format : Option (ℕ × ℕ × ℕ) := none
  bits : Option ℕ := none
  /-- The slice of the file that is taken for the audio. -/
  data : Option Chunk := none
  deriving DecidableEq

/-- What the loop makes of a chunk. -/
def Reader.take (r : Reader) (c : Chunk) : Except String Reader :=
  if c.id = fmtTag then
    if c.body.length < 16 then .error "truncated fmt chunk"
    else .ok { r with
      format := some (ofLe (slice c.body 0 2), ofLe (slice c.body 2 4), ofLe (slice c.body 4 8))
      bits := some (ofLe (slice c.body 14 16)) }
  else if c.id = dataTag then .ok { r with data := some c }
  else .ok r

/-- The loop of `parse_wav`, over the chunks from the twelfth byte on. -/
def readChunks (bytes : List UInt8) : Except String Reader :=
  (chunks 12 (bytes.drop 12)).foldlM Reader.take {}

/-- `i16::from_le_bytes` -/
def fromLeBytes (b : List UInt8) : Int16 := (UInt16.ofNat (ofLe b)).toInt16

/-- A sample of 16 bits between -1 and 1. -/
def value (s : Int16) : ℚ := s.toInt / 32768

/-- The samples of an audio chunk. -/
@[grind =]
def decodeSamples (float : UInt32 → ℚ) (data : List UInt8) (codec bits : ℕ) : Except String (List ℚ) :=
  match codec, bits with
  | 1, 16 => .ok ((blocks 2 data).map fun b => value (fromLeBytes b.1))
  | 1, 8 => .ok (data.map fun b => ((b.toNat : ℚ) - 128) / 128)
  | 3, 32 => .ok ((blocks 4 data).map fun b => float (UInt32.ofNat (ofLe b.1)))
  | codec, bits => .error s!"unsupported WAV codec/bits: ({codec}, {bits})"

/-- `chunks` of some samples, and the mean of each. -/
def downmix (channels : ℕ) (samples : List ℚ) : List ℚ :=
  if samples.isEmpty then [] else (cut channels samples).map fun frame => frame.sum / channels

/-- What `parse_wav` makes of what its loop has found. -/
def Reader.decode (float : UInt32 → ℚ) (r : Reader) : Except String WavData :=
  match r.format with
  | none => .error "missing fmt chunk"
  | some (codec, channels, rate) =>
    match r.data with
    | none => .error "missing data chunk"
    | some data =>
      (decodeSamples float data.body codec (r.bits.getD 16)).bind fun samples =>
        if channels = 0 then .error "zero channels"
        else .ok ⟨rate, if channels = 1 then samples else downmix channels samples⟩

/-- **`parse_wav`**.  A slice has at most `isize::MAX` bytes, so that no offset overflows. -/
def parseWav (float : UInt32 → ℚ) (bytes : List UInt8) : Except String WavData :=
  if bytes.length < 12 ∨ slice bytes 0 4 ≠ riffTag ∨ slice bytes 8 12 ≠ waveTag then
    .error "not a RIFF/WAVE file"
  else (readChunks bytes).bind (Reader.decode float)

/-- The place in the file from which the audio is taken. -/
def audioStart (bytes : List UInt8) : Option ℕ := (readChunks bytes).toOption.bind fun r =>
  r.data.map Chunk.start

/-! ### What is to hold -/

/-- The bytes of some samples. -/
def sampleBytes (samples : List Int16) : List UInt8 := samples.flatMap toLeBytes

/-- **A recording that was cut off is read as a beginning of its samples**, and none is taken from
another place than that behind the header. -/
def TornReads (float : UInt32 → ℚ) (samples : List Int16) (file : List UInt8) : Prop :=
  ∃ w, parseWav float file = .ok w ∧ w.samples <+: samples.map value ∧
    (w.samples ≠ [] → audioStart file = some 44)

/-! ### Files -/

/-- A file with a format and audio as they are written, and more behind them. -/
def fileOf (riffLen : ℕ) (body more : List UInt8) : List UInt8 :=
  riffTag ++ leBytes 4 riffLen ++ waveTag ++ (encode fmtTag fmtBody ++ (encode dataTag body ++ more))

theorem length_fmtBody : fmtBody.length = 16 := rfl

/-- The header of a number of samples that fits. -/
theorem header_eq (build : Build) {n : ℕ} (h : 36 + 2 * n < 2 ^ 32) :
    header build n = some (riffTag ++ leBytes 4 (36 + 2 * n) ++ waveTag ++
      (encode fmtTag fmtBody ++ (dataTag ++ leBytes 4 (2 * n)))) := by
  have hmod : n * 2 % 2 ^ 32 = 2 * n := by omega
  rw [header, Build.result_eq (by omega), Option.bind_some]
  simp only [hmod]
  rw [Build.result_eq h, Option.map_some, encode, length_fmtBody]
  simp only [List.append_assoc]

theorem length_header {build : Build} {n : ℕ} {h : List UInt8} (hh : header build n = some h) :
    h.length = 44 := by
  obtain ⟨bytes, -, hh⟩ := Option.bind_eq_some_iff.mp hh
  obtain ⟨riffLen, -, rfl⟩ := Option.map_eq_some_iff.mp hh
  simp [riffTag, waveTag, fmtTag, dataTag, fmtBody]

theorem length_sampleBytes (samples : List Int16) : (sampleBytes samples).length = 2 * samples.length := by
  induction samples with
  | nil => rfl
  | cons s samples ih =>
      rw [sampleBytes, List.flatMap_cons, List.length_append, ← sampleBytes, ih, toLeBytes,
        length_leBytes, List.length_cons]
      omega

/-- A writer counts what it has written behind its header. -/
theorem foldl_writeI16 (w : WavWriter) (writes : List (List Int16)) :
    writes.foldl WavWriter.writeI16 w =
      ⟨w.file ++ sampleBytes writes.flatten, w.samples + writes.flatten.length⟩ := by
  induction writes generalizing w with
  | nil => simp [sampleBytes]
  | cons samples writes ih =>
      rw [List.foldl_cons, ih]
      simp [WavWriter.writeI16, sampleBytes, List.append_assoc, Nat.add_assoc]

/-- A recording that goes on: the header with sizes of zero, and the samples. -/
theorem record_eq (build : Build) (writes : List (List Int16)) :
    record build writes = some ⟨fileOf 36 [] (sampleBytes writes.flatten), writes.flatten.length⟩ := by
  rw [record, WavWriter.create, header_eq build (n := 0) (by decide), Option.map_some, Option.map_some,
    foldl_writeI16, Nat.zero_add]
  simp only [fileOf, encode, List.append_assoc]
  rfl

/-- A recording that was ended: the sizes are those of the samples. -/
theorem finalize_eq (build : Build) (writes : List (List Int16))
    (h : 36 + 2 * writes.flatten.length < 2 ^ 32) :
    (record build writes).bind (WavWriter.finalize build) =
      some (fileOf (36 + 2 * writes.flatten.length) (sampleBytes writes.flatten) []) := by
  have hfile : fileOf 36 [] (sampleBytes writes.flatten) =
      fileOf 36 [] [] ++ sampleBytes writes.flatten := by
    simp only [fileOf, List.append_assoc, List.append_nil]
  have hdrop : (fileOf 36 [] (sampleBytes writes.flatten)).drop 44 = sampleBytes writes.flatten := by
    rw [hfile]
    exact List.drop_left' rfl
  rw [record_eq, Option.bind_some, WavWriter.finalize]
  simp only
  rw [header_eq build h, Option.map_some, length_header (header_eq build h), hdrop]
  simp only [fileOf, encode, length_sampleBytes, List.append_assoc, List.append_nil]

/-! ### What the reader finds -/

/-- What the loop knows of the format. -/
structure Format where
  codec : ℕ
  channels : ℕ
  rate : ℕ
  bits : ℕ
  deriving DecidableEq

/-- PCM, mono, 16 kHz, 16 bits. -/
def standard : Format := ⟨1, 1, 16000, 16⟩

/-- The format of a `fmt ` chunk. -/
def formatOf (body : List UInt8) : Format :=
  ⟨ofLe (slice body 0 2), ofLe (slice body 2 4), ofLe (slice body 4 8), ofLe (slice body 14 16)⟩

/-- A reader that has found a format and audio. -/
def found (f : Format) (d : Chunk) : Reader := ⟨some (f.codec, f.channels, f.rate), some f.bits, some d⟩

/-- The last format among some chunks, or `f`. -/
def lastFormat (f : Format) (cs : List Chunk) : Format :=
  cs.foldl (fun f c => if c.id = fmtTag then formatOf c.body else f) f

/-- The last audio among some chunks, or `d`. -/
def lastData (d : Chunk) (cs : List Chunk) : Chunk :=
  cs.foldl (fun d c => if c.id = dataTag then c else d) d

/-- Formats that are long enough to be read. -/
def FormatsWhole (cs : List Chunk) : Prop := ∀ c ∈ cs, c.id = fmtTag → 16 ≤ c.body.length

theorem fmtTag_ne_dataTag : fmtTag ≠ dataTag := by decide

/-- A chunk changes what has been found, unless its format is cut off. -/
theorem take_found (f : Format) (d c : Chunk) :
    (found f d).take c =
      if c.id = fmtTag ∧ c.body.length < 16 then .error "truncated fmt chunk"
      else .ok (found (if c.id = fmtTag then formatOf c.body else f) (if c.id = dataTag then c else d)) := by
  unfold Reader.take
  by_cases hfmt : c.id = fmtTag
  · have hdata : c.id ≠ dataTag := hfmt ▸ fmtTag_ne_dataTag
    simp only [hfmt, true_and, if_true, if_neg fmtTag_ne_dataTag]
    rfl
  · by_cases hdata : c.id = dataTag
    · simp only [hdata, if_true, fmtTag_ne_dataTag.symm, false_and, if_false]
      rfl
    · simp only [if_neg hdata, hfmt, false_and, if_false]

/-- What is found behind a format and audio. -/
theorem foldlM_take (f : Format) (d : Chunk) (cs : List Chunk) :
    (FormatsWhole cs → cs.foldlM Reader.take (found f d) = .ok (found (lastFormat f cs) (lastData d cs))) ∧
    (¬ FormatsWhole cs → cs.foldlM Reader.take (found f d) = .error "truncated fmt chunk") := by
  induction cs generalizing f d with
  | nil => exact ⟨fun _ => rfl, fun h => absurd (fun c hc => by cases hc) h⟩
  | cons c cs ih =>
      have hwhole : FormatsWhole (c :: cs) ↔
          ¬ (c.id = fmtTag ∧ c.body.length < 16) ∧ FormatsWhole cs := by
        simp only [FormatsWhole, List.forall_mem_cons, not_and, not_lt]
      rw [List.foldlM_cons, take_found, hwhole]
      by_cases hshort : c.id = fmtTag ∧ c.body.length < 16
      · rw [if_pos hshort]
        exact ⟨fun h => absurd hshort h.1, fun _ => rfl⟩
      · rw [if_neg hshort]
        obtain ⟨hok, herror⟩ := ih (if c.id = fmtTag then formatOf c.body else f)
          (if c.id = dataTag then c else d)
        exact ⟨fun h => hok h.2, fun h => herror fun hcs => h ⟨hshort, hcs⟩⟩

/-- The loop over a file with a format and audio as they are written. -/
theorem readChunks_fileOf {riffLen : ℕ} {body more : List UInt8} (heven : body.length % 2 = 0)
    (hlen : body.length < 2 ^ 32) :
    readChunks (fileOf riffLen body more) =
      (chunks (44 + body.length) more).foldlM Reader.take (found standard ⟨44, dataTag, body⟩) := by
  have hdrop : (fileOf riffLen body more).drop 12 =
      encode fmtTag fmtBody ++ (encode dataTag body ++ more) :=
    List.drop_left' (by simp [riffTag, waveTag])
  have hformat : Reader.take {} ⟨20, fmtTag, fmtBody⟩ = .ok ⟨some (1, 1, 16000), some 16, none⟩ := by
    decide
  have hdata : Reader.take ⟨some (1, 1, 16000), some 16, none⟩ ⟨44, dataTag, body⟩ =
      .ok (found standard ⟨44, dataTag, body⟩) := rfl
  rw [readChunks, hdrop, chunks_encode rfl rfl (by decide), chunks_encode rfl heven hlen,
    List.foldlM_cons]
  change (Reader.take {} ⟨20, fmtTag, fmtBody⟩ >>= _) = _
  rw [hformat]
  change List.foldlM _ _ _ = _
  rw [List.foldlM_cons]
  change (Reader.take _ ⟨44, dataTag, body⟩ >>= _) = _
  rw [hdata]
  rfl

/-- Such a file is read to its end. -/
theorem parseWav_fileOf (float : UInt32 → ℚ) {riffLen : ℕ} {body more : List UInt8}
    (heven : body.length % 2 = 0) (hlen : body.length < 2 ^ 32) :
    parseWav float (fileOf riffLen body more) =
      ((chunks (44 + body.length) more).foldlM Reader.take (found standard ⟨44, dataTag, body⟩)).bind
        (Reader.decode float) := by
  have hriff : slice (fileOf riffLen body more) 0 4 = riffTag := by
    simp only [fileOf, List.append_assoc, slice]
    exact List.take_left' rfl
  have hwave : slice (fileOf riffLen body more) 8 12 = waveTag := by
    have hsplit : fileOf riffLen body more = (riffTag ++ leBytes 4 riffLen) ++
        (waveTag ++ (encode fmtTag fmtBody ++ (encode dataTag body ++ more))) := by
      simp only [fileOf, List.append_assoc]
    rw [slice, hsplit, List.drop_left' (by simp [riffTag])]
    exact List.take_left' rfl
  have hlong : ¬ (fileOf riffLen body more).length < 12 := by
    rw [fileOf, List.length_append, show (riffTag ++ leBytes 4 riffLen ++ waveTag).length = 12 by
      simp [riffTag, waveTag]]
    omega
  rw [parseWav, if_neg (by rw [hriff, hwave]; tauto), readChunks_fileOf heven hlen]

/-! ### What the reader makes of it -/

/-- The bytes of one sample, where a codec is supported. -/
def width (codec bits : ℕ) : Option ℕ :=
  match codec, bits with
  | 1, 16 => some 2
  | 1, 8 => some 1
  | 3, 32 => some 4
  | _, _ => none

theorem blocks_eq_nil_iff {n : ℕ} (hn : 0 < n) (l : List UInt8) : blocks n l = [] ↔ l.length < n := by
  refine ⟨fun h => ?_, blocks_of_lt⟩
  by_contra hlt
  rw [blocks, dif_pos ⟨hn, Nat.not_lt.1 hlt⟩] at h
  cases h

/-- Audio of a supported codec has no samples exactly where it is shorter than one. -/
theorem decodeSamples_cases (float : UInt32 → ℚ) (data : List UInt8) (codec bits : ℕ) :
    (∃ w samples, width codec bits = some w ∧ decodeSamples float data codec bits = .ok samples ∧
      (samples = [] ↔ data.length < w)) ∨
    (width codec bits = none ∧ ∃ e, decodeSamples float data codec bits = .error e) := by
  fun_cases decodeSamples float data codec bits with
  | case1 => exact .inl ⟨2, _, rfl, rfl, by rw [List.map_eq_nil_iff, blocks_eq_nil_iff (by decide)]⟩
  | case2 => exact .inl ⟨1, _, rfl, rfl, by rw [List.map_eq_nil_iff, Nat.lt_one_iff, List.length_eq_zero_iff]⟩
  | case3 => exact .inl ⟨4, _, rfl, rfl, by rw [List.map_eq_nil_iff, blocks_eq_nil_iff (by decide)]⟩
  | case4 _ _ h16 h8 h32 =>
      refine .inr ⟨?_, _, rfl⟩
      unfold width
      split
      · exact (h16 rfl rfl).elim
      · exact (h8 rfl rfl).elim
      · exact (h32 rfl rfl).elim
      · rfl

theorem downmix_eq_nil_iff {channels : ℕ} (h : channels ≠ 0) (samples : List ℚ) :
    downmix channels samples = [] ↔ samples = [] := by
  cases samples with
  | nil => exact ⟨fun _ => rfl, fun _ => rfl⟩
  | cons s samples =>
      refine ⟨fun hnil => absurd (List.map_eq_nil_iff.mp hnil) (cut_ne_nil ?_ _), fun hnil => by cases hnil⟩
      omega

/-- A format whose audio can be decoded, and the bytes of one sample of it. -/
def Playable (f : Format) (w : ℕ) : Prop := f.channels ≠ 0 ∧ width f.codec f.bits = some w

/-- Audio of a playable format has no samples exactly where it is shorter than one. -/
theorem decode_of_playable (float : UInt32 → ℚ) {f : Format} {w : ℕ} (h : Playable f w) (d : Chunk) :
    ∃ samples, (found f d).decode float = .ok ⟨f.rate, samples⟩ ∧
      (samples = [] ↔ d.body.length < w) := by
  obtain ⟨hchannels, hwidth⟩ := h
  obtain ⟨w', samples, hw', hsamples, hnil⟩ | ⟨hnone, -⟩ :=
    decodeSamples_cases float d.body f.codec f.bits
  · obtain rfl : w' = w := Option.some.inj (hw'.symm.trans hwidth)
    refine ⟨if f.channels = 1 then samples else downmix f.channels samples, ?_, ?_⟩
    · simp only [Reader.decode, found, Option.getD_some, hsamples]
      change (if f.channels = 0 then _ else _) = _
      rw [if_neg hchannels]
    · split
      · exact hnil
      · rw [downmix_eq_nil_iff hchannels, hnil]
  · rw [hnone] at hwidth
    cases hwidth

/-- Audio of a format that is not playable is an error. -/
theorem playable_of_decode (float : UInt32 → ℚ) {f : Format} {d : Chunk} {x : WavData}
    (h : (found f d).decode float = .ok x) : ∃ w, Playable f w := by
  simp only [Reader.decode, found, Option.getD_some] at h
  obtain ⟨w, samples, hw, hsamples, -⟩ | ⟨-, e, he⟩ := decodeSamples_cases float d.body f.codec f.bits
  · refine ⟨w, fun hzero => ?_, hw⟩
    rw [hsamples] at h
    change (if f.channels = 0 then _ else _) = _ at h
    rw [if_pos hzero] at h
    cases h
  · rw [he] at h
    cases h

/-! ### A recording that was ended -/

theorem fromLeBytes_toLeBytes (s : Int16) : fromLeBytes (toLeBytes s) = s := by
  have hs : s.toUInt16.toNat < 256 ^ 2 := s.toUInt16.toNat_lt
  rw [fromLeBytes, toLeBytes, ofLe_leBytes_of_lt hs, UInt16.ofNat_toNat, Int16.toInt16_toUInt16]

/-- The samples that were written are decoded. -/
theorem decodeSamples_sampleBytes (float : UInt32 → ℚ) (samples : List Int16) :
    decodeSamples float (sampleBytes samples) 1 16 = .ok (samples.map value) := by
  refine congrArg Except.ok ?_
  induction samples with
  | nil =>
      rw [show sampleBytes [] = [] from rfl, blocks_of_lt (by decide)]
      rfl
  | cons s samples ih =>
      have hblock := blocks_block_append (n := 2) (by decide)
        (⟨toLeBytes s, length_leBytes 2 _⟩ : Block UInt8 2) (sampleBytes samples)
      rw [sampleBytes, List.flatMap_cons, ← sampleBytes, hblock, List.map_cons, ih, List.map_cons,
        fromLeBytes_toLeBytes]

/-- A recording that was ended is read as it was written. -/
theorem parseWav_finalize (build : Build) (float : UInt32 → ℚ) (writes : List (List Int16))
    (h : 36 + 2 * writes.flatten.length < 2 ^ 32) :
    ∃ file, (record build writes).bind (WavWriter.finalize build) = some file ∧
      parseWav float file = .ok ⟨16000, writes.flatten.map value⟩ := by
  refine ⟨_, finalize_eq build writes h, ?_⟩
  have hlen := length_sampleBytes writes.flatten
  rw [parseWav_fileOf float (by omega) (by omega), chunks_of_lt (by decide)]
  change Reader.decode float (found standard ⟨44, dataTag, sampleBytes writes.flatten⟩) = _
  simp only [Reader.decode, found, standard, Option.getD_some, decodeSamples_sampleBytes]
  rfl

/-! ### A recording that was cut off -/

/-- The chunk of audio that the header declares where its sizes are zero. -/
def emptyAudio : Chunk := ⟨44, dataTag, []⟩

/-- Audio that is taken for chunks and does no harm: no format is cut off, the last format is playable, and
the last chunk of audio is shorter than a sample. -/
def Harmless (audio : List UInt8) : Prop :=
  FormatsWhole (chunks 44 audio) ∧
  ∃ w, Playable (lastFormat standard (chunks 44 audio)) w ∧
    (lastData emptyAudio (chunks 44 audio)).body.length < w

/-- The last audio of some chunks is one of them, or that before them. -/
theorem lastData_cases (d : Chunk) (cs : List Chunk) : lastData d cs = d ∨ lastData d cs ∈ cs := by
  induction cs generalizing d with
  | nil => exact .inl rfl
  | cons c cs ih =>
      rw [lastData, List.foldl_cons, ← lastData]
      obtain h | h := ih (if c.id = dataTag then c else d)
      · rw [h]
        split
        · exact .inr List.mem_cons_self
        · exact .inl rfl
      · exact .inr (List.mem_cons_of_mem c h)

/-- What the loop finds in a recording that was cut off. -/
theorem readChunks_torn (audio : List UInt8) :
    readChunks (fileOf 36 [] audio) =
      (chunks 44 audio).foldlM Reader.take (found standard emptyAudio) :=
  readChunks_fileOf (by decide) (by decide)

theorem parseWav_torn (float : UInt32 → ℚ) (audio : List UInt8) :
    parseWav float (fileOf 36 [] audio) =
      ((chunks 44 audio).foldlM Reader.take (found standard emptyAudio)).bind (Reader.decode float) :=
  parseWav_fileOf float (by decide) (by decide)

/-- Samples of a recording that was cut off are from another place than that behind the header. -/
theorem eq_nil_of_tornReads {float : UInt32 → ℚ} {audio : List UInt8} {x : WavData}
    (hread : parseWav float (fileOf 36 [] audio) = .ok x)
    (hstart : x.samples ≠ [] → audioStart (fileOf 36 [] audio) = some 44) : x.samples = [] := by
  by_contra hne
  have hplace := hstart hne
  have hfold := foldlM_take standard emptyAudio (chunks 44 audio)
  by_cases hwhole : FormatsWhole (chunks 44 audio)
  · rw [audioStart, readChunks_torn, hfold.1 hwhole] at hplace
    rw [parseWav_torn, hfold.1 hwhole] at hread
    change (found _ _).decode float = _ at hread
    obtain ⟨w, hplay⟩ := playable_of_decode float hread
    obtain ⟨samples, hsamples, hnil⟩ := decode_of_playable float hplay
      (lastData emptyAudio (chunks 44 audio))
    rw [hsamples] at hread
    cases hread
    obtain hlast | hlast := lastData_cases emptyAudio (chunks 44 audio)
    · -- the audio that the header declares is empty
      refine hne (hnil.mpr ?_)
      rw [hlast]
      refine Nat.pos_of_ne_zero fun hw => ?_
      have hwidth := hplay.2
      rw [hw] at hwidth
      revert hwidth
      unfold width
      split <;> decide
    · have hbehind := le_start hlast
      have : (lastData emptyAudio (chunks 44 audio)).start = 44 := Option.some.inj hplace
      omega
  · rw [parseWav_torn, hfold.2 hwhole] at hread
    cases hread

/-- Exactly when a recording that was cut off is read without harm. -/
theorem tornReads_iff (float : UInt32 → ℚ) (samples : List Int16) (audio : List UInt8) :
    TornReads float samples (fileOf 36 [] audio) ↔ Harmless audio := by
  have hfold := foldlM_take standard emptyAudio (chunks 44 audio)
  constructor
  · rintro ⟨x, hread, -, hstart⟩
    have hnil : x.samples = [] := eq_nil_of_tornReads hread hstart
    by_cases hwhole : FormatsWhole (chunks 44 audio)
    · rw [parseWav_torn, hfold.1 hwhole] at hread
      change (found _ _).decode float = _ at hread
      obtain ⟨w, hplay⟩ := playable_of_decode float hread
      obtain ⟨decoded, hdecoded, hshort⟩ := decode_of_playable float hplay
        (lastData emptyAudio (chunks 44 audio))
      rw [hdecoded] at hread
      cases hread
      exact ⟨hwhole, w, hplay, hshort.mp hnil⟩
    · rw [parseWav_torn, hfold.2 hwhole] at hread
      cases hread
  · rintro ⟨hwhole, w, hplay, hshort⟩
    obtain ⟨decoded, hdecoded, hnil⟩ := decode_of_playable float hplay
      (lastData emptyAudio (chunks 44 audio))
    obtain rfl := hnil.mpr hshort
    refine ⟨_, by rw [parseWav_torn, hfold.1 hwhole]; exact hdecoded, List.nil_prefix, fun h => ?_⟩
    exact absurd rfl h

/-- A recording that was ended is read as it was written, whatever the samples are, and what is left of one
that was cut off at any place is read as a beginning of its samples, with none from a wrong place, exactly
where the audio does no harm when it is taken for chunks. -/
theorem wav_faithful (build : Build) (float : UInt32 → ℚ) {writes : List (List Int16)}
    (h : 36 + 2 * writes.flatten.length < 2 ^ 32) :
    (∃ file, (record build writes).bind (WavWriter.finalize build) = some file ∧
      parseWav float file = .ok ⟨16000, writes.flatten.map value⟩) ∧
    ∃ head, header build 0 = some head ∧
      ∀ (writes : List (List Int16)) (w : WavWriter) (audio : List UInt8),
        record build writes = some w → head ++ audio <+: w.file →
        (TornReads float writes.flatten (head ++ audio) ↔ Harmless audio) := by
  refine ⟨parseWav_finalize build float writes h, _, header_eq build (n := 0) (by decide),
    fun writes w audio _ _ => ?_⟩
  rw [← tornReads_iff float writes.flatten audio]
  simp only [fileOf, encode, List.append_assoc]
  rfl

theorem wav_faithful_three :
    36 + 2 * ([[1, 2], [3]] : List (List Int16)).flatten.length < 2 ^ 32 ∧
    (∃ file, (record .checked [[1, 2], [3]]).bind (WavWriter.finalize .checked) = some file ∧
      parseWav (fun _ => 0) file = .ok ⟨16000, ([[1, 2], [3]] : List (List Int16)).flatten.map value⟩) :=
  have hfits : 36 + 2 * ([[1, 2], [3]] : List (List Int16)).flatten.length < 2 ^ 32 := by decide
  ⟨hfits, (wav_faithful .checked (fun _ => 0) hfits).1⟩

/-- Five samples whose bytes are a chunk of audio of one sample: the file that was cut off behind them is
not read as a beginning of them. -/
theorem not_tornReads_tagged :
    ∃ w, record .checked [[0x6164, 0x6174, 2, 0, 1]] = some w ∧
      ¬ TornReads (fun _ => 0) [0x6164, 0x6174, 2, 0, 1] w.file := by
  refine ⟨_, record_eq .checked _, ?_⟩
  have haudio : sampleBytes [0x6164, 0x6174, 2, 0, 1] = encode dataTag [1, 0] ++ [] := by decide
  have hchunks : chunks 44 (encode dataTag [1, 0] ++ []) = [⟨52, dataTag, [1, 0]⟩] := by
    rw [chunks_encode rfl rfl (by decide), chunks_of_lt (by decide)]
  rw [show ([[0x6164, 0x6174, 2, 0, 1]] : List (List Int16)).flatten = [0x6164, 0x6174, 2, 0, 1] from rfl,
    tornReads_iff, haudio, Harmless, hchunks]
  rintro ⟨-, w, ⟨-, hwidth⟩, hshort⟩
  obtain rfl : 2 = w := Option.some.inj hwidth
  exact absurd hshort (by decide)

end MeetingWav

/-
**The names of segments.**

A segment of a `FileOutput` is named by the camera and by the second in which it is opened, and
creating a file empties the one that has its name.  Segments that are opened in different seconds have
different names, whatever the clock shows; but a pause that ends in the second it began in, a duration
of zero or a muxer that cannot be built has two segments opened in one second.

Main definitions:

* `Recording.createdSecond` — the second of the file that a call creates, read off before it;
* `Recording.openSeconds` — those of a run.

Main results:

* `Recording.formatLocalTimestamp_injective` — a stamp has one second;
* `Recording.created_exec` — the files that a run creates;
* `Recording.nodup_created_iff` — **no segment is overwritten exactly when no two are opened in one
  second**.
-/

import MibeeEye.FileOutput

set_option relaxedAutoImplicit false
set_option autoImplicit false

namespace Recording

open Civil Machine Rtmp

/-! ### Stamps -/

/-- The stamp is the date of the day and the time of the day. -/
theorem formatLocalTimestamp_eq (s : ℕ) :
    formatLocalTimestamp s =
      field 4 (ofDays ((s / 86400 : ℕ) + 719468)).year ++
        field 2 (ofDays ((s / 86400 : ℕ) + 719468)).month ++
        field 2 (ofDays ((s / 86400 : ℕ) + 719468)).day ++ field 2 (s % 86400 / 3600 : ℕ) ++
        field 2 (s % 86400 % 3600 / 60 : ℕ) ++ field 2 (s % 86400 % 60 : ℕ) := by
  have hera : ∀ z : ℤ, 0 ≤ z → (if z ≥ 0 then z else z - 146096).tdiv 146097 = z / 146097 := by
    intro z hz
    rw [if_pos hz, Int.tdiv_eq_ediv_of_nonneg hz]
  have hdoe : ∀ z : ℤ, z - z / 146097 * 146097 = z % 146097 := by
    intro z
    omega
  simp only [formatLocalTimestamp, hera _ (show (0 : ℤ) ≤ (s / 86400 : ℕ) + 719468 by omega), hdoe]
  rfl

/-- **A stamp has one second.** -/
theorem formatLocalTimestamp_injective : Function.Injective formatLocalTimestamp := by
  intro s t h
  rw [formatLocalTimestamp_eq, formatLocalTimestamp_eq] at h
  have htwo : ∀ n : ℕ, n < 100 → (0 : ℤ) ≤ n ∧ (n : ℤ) < 10 ^ 2 := by
    intro n hn
    omega
  have hmonth : ∀ z : ℤ, 0 ≤ (ofDays z).month ∧ (ofDays z).month < 10 ^ 2 := by
    intro z
    have := month_bounds z
    omega
  have hday : ∀ z : ℤ, 0 ≤ (ofDays z).day ∧ (ofDays z).day < 10 ^ 2 := by
    intro z
    have := day_bounds z
    omega
  -- the fields are read off from the end; the year has what is left
  obtain ⟨h, hsec⟩ := append_field_inj (by decide) (htwo _ (by omega)) (htwo _ (by omega)) h
  obtain ⟨h, hmin⟩ := append_field_inj (by decide) (htwo _ (by omega)) (htwo _ (by omega)) h
  obtain ⟨h, hhour⟩ := append_field_inj (by decide) (htwo _ (by omega)) (htwo _ (by omega)) h
  obtain ⟨h, hd⟩ := append_field_inj (by decide) (hday _) (hday _) h
  obtain ⟨h, hm⟩ := append_field_inj (by decide) (hmonth _) (hmonth _) h
  have hy := field_inj (year_nonneg (by omega)) (year_nonneg (by omega)) h
  have hdays := ofDays_injective (Date.ext hy hm hd)
  omega

/-- So has the name of a segment. -/
theorem segmentPath_injective (o : FileOutput) : Function.Injective o.segmentPath := by
  intro s t h
  have hname := List.append_cancel_left h
  rw [List.cons_inj_right, List.append_cancel_left_eq, List.cons_inj_right,
    List.append_cancel_right_eq] at hname
  exact formatLocalTimestamp_injective hname

/-! ### The files of a run -/

/-- The second of the file that a call creates, read off before it: a frame that is let through, of an
output that is started, opens a segment, and the operating system creates the file. -/
def createdSecond (o : FileOutput) : Event → Option ℕ
  | .frame (.video keyframe _ _) e =>
      if !o.pauseFlag.getD false && o.started && o.openNow keyframe e.instant && e.created then
        some e.now
      else none
  | _ => none

/-- The seconds of all files that a run creates. -/
def openSeconds (r : Recorder) : List Event → List ℕ
  | [] => []
  | a :: es =>
      (createdSecond r.output a).toList ++
        (recorderStep r a).elim [] fun t => openSeconds t es

variable {r t : Recorder} {e : Env} {result : Except (List Char) Unit}

/-- A frame of an output that is started, and not paused. -/
theorem created_takeFrame {keyframe : Bool} {data : List UInt8} {timestamp : ℕ}
    (h : r.takeFrame keyframe data timestamp e = some (t, result)) :
    r.output.SameNames t.output ∧
      t.created = r.created ++
        if r.output.openNow keyframe e.instant && e.created then [r.output.segmentPath e.now]
        else [] := by
  unfold Recorder.takeFrame at h
  split at h
  · rename_i hopen
    obtain ⟨out, hout, h⟩ := Option.bind_eq_some_iff.1 h
    have hopened := Recorder.opened_of_openNewSegment hout
    have hkeeps := Recorder.writeFrame_keeps h
    refine ⟨hopened.names.trans hkeeps.1, ?_⟩
    rw [hkeeps.2, hopened.created, hopen, Bool.true_and]
  · rename_i hopen
    have hkeeps := Recorder.writeFrame_keeps h
    refine ⟨hkeeps.1, ?_⟩
    rw [hkeeps.2, if_neg (by simp [hopen]), List.append_nil]

theorem created_sendFrame {keyframe : Bool} {data : List UInt8} {timestamp : ℕ}
    (h : r.sendFrame (.video keyframe data timestamp) e = some (t, result)) :
    r.output.SameNames t.output ∧
      t.created = r.created ++
        ((createdSecond r.output (.frame (.video keyframe data timestamp) e)).toList.map
          r.output.segmentPath) := by
  cases hpaused : r.output.pauseFlag.getD false with
  | true =>
      rw [Recorder.sendFrame_of_paused keyframe data timestamp e hpaused] at h
      cases h
      have hnone : createdSecond r.output (.frame (.video keyframe data timestamp) e) = none := by
        simp [createdSecond, hpaused]
      rw [hnone, Option.toList_none, List.map_nil, List.append_nil]
      exact ⟨Recorder.sameNames_closeCurrentSegment _, Recorder.created_closeCurrentSegment _⟩
  | false =>
      rw [Recorder.sendFrame_of_not keyframe data timestamp e hpaused] at h
      cases hstarted : r.output.started with
      | false =>
          rw [hstarted, Bool.not_false, if_pos rfl] at h
          cases h
          exact ⟨FileOutput.SameNames.refl _, by simp [createdSecond, hstarted]⟩
      | true =>
          rw [hstarted, Bool.not_true, if_neg Bool.false_ne_true] at h
          obtain ⟨hnames, hcreated⟩ := created_takeFrame h
          refine ⟨hnames, hcreated.trans ?_⟩
          -- the latch of the pause is not read here
          have hopen : ({ r.output with wasPaused := false } : FileOutput).openNow keyframe e.instant =
              r.output.openNow keyframe e.instant := rfl
          rw [hopen, createdSecond, hpaused, hstarted, Bool.not_false, Bool.true_and, Bool.true_and]
          split <;> rfl

/-- **One call** creates the file of its second, if any. -/
theorem created_recorderStep {a : Event} (h : recorderStep r a = some t) :
    r.output.SameNames t.output ∧
      t.created = r.created ++ (createdSecond r.output a).toList.map r.output.segmentPath := by
  cases a with
  | start made =>
      cases h
      unfold Recorder.start
      split <;> exact ⟨FileOutput.SameNames.refl _, (List.append_nil _).symm⟩
  | setPaused paused =>
      cases h
      exact ⟨FileOutput.SameNames.refl _, (List.append_nil _).symm⟩
  | setDimensions dimensions =>
      cases h
      exact ⟨FileOutput.SameNames.refl _, (List.append_nil _).symm⟩
  | stop =>
      cases h
      refine ⟨Recorder.sameNames_closeCurrentSegment r, ?_⟩
      exact (Recorder.created_closeCurrentSegment r).trans (List.append_nil _).symm
  | frame frame e =>
      obtain ⟨⟨t', result⟩, hsend, rfl⟩ := Option.map_eq_some_iff.1 h
      cases frame with
      | audio data timestamp =>
          cases hsend
          exact ⟨FileOutput.SameNames.refl _, (List.append_nil _).symm⟩
      | video keyframe data timestamp => exact created_sendFrame hsend

/-- **A run** creates the files of its seconds. -/
theorem created_exec {es : List Event} (h : exec recorderStep r es = some t) :
    t.created = r.created ++ (openSeconds r es).map r.output.segmentPath := by
  induction es generalizing r with
  | nil =>
      cases h
      exact (List.append_nil _).symm
  | cons a es ih =>
      rw [exec_cons] at h
      obtain ⟨u, hu, h⟩ := Option.bind_eq_some_iff.1 h
      obtain ⟨hnames, hcreated⟩ := created_recorderStep hu
      rw [ih h, hcreated, hnames.segmentPath, openSeconds, hu, Option.elim_some, List.map_append,
        List.append_assoc]

/-- **No segment is overwritten exactly when no two are opened in one second.** -/
theorem nodup_created_iff (o : FileOutput) {es : List Event} {t : Recorder}
    (h : exec recorderStep { output := o } es = some t) :
    t.created.Nodup ↔ (openSeconds { output := o } es).Nodup := by
  rw [created_exec h, List.nil_append]
  exact List.nodup_map_iff (segmentPath_injective o)

/-! ### A pause -/

/-- An output with a pause gate, whose segments have a quarter of an hour. -/
def gated : FileOutput :=
  { FileOutput.new ['r'] ['c'] 900 0 with pauseFlag := some false }

/-- A pause of one frame, after a segment is opened in one second and before the next is in another. -/
def shortPause (before after : ℕ) : List Event :=
  [.start true, .frame (.video true [0x65] 0) { clock := some before }, .setPaused true,
    .frame (.video true [0x65] 33) { clock := some after }, .setPaused false,
    .frame (.video true [0x65] 66) { clock := some after }]

theorem nodup_created_shortPause :
    ∃ t, exec recorderStep { output := gated } (shortPause 0 1) = some t ∧ t.created.Nodup :=
  have hrun : (exec recorderStep { output := gated } (shortPause 0 1)).isSome = true := rfl
  have ⟨t, ht⟩ := Option.isSome_iff_exists.1 hrun
  ⟨t, ht, (nodup_created_iff gated ht).2 (by decide)⟩

/-- The segment after the pause is opened in the second of the one before. -/
theorem not_nodup_created_shortPause :
    ∃ t, exec recorderStep { output := gated } (shortPause 1704067200 1704067200) = some t ∧
      ¬ t.created.Nodup :=
  ⟨_, rfl, fun h => (List.nodup_cons.1 h).1 (List.mem_singleton.2 rfl)⟩

end Recording

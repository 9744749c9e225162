/-
**Two splitters for one byte stream.**

The encoder splits its own output with `split_annex_b_to_nals` (`crates/streaming/src/encoder/h264.rs`),
everything else with `split_nal_units` (`crates/protocols/src/h264.rs`).  They look for the same start
codes and differ at the edges.  The encoder's splitter gives every NAL unit at least one byte, so that
of two adjacent start codes the second ends up in a NAL unit, and it takes a slice out of range when a
start code is the last thing there is.  The other one drops empty NAL units, and does not look for a
start code in the last three bytes.

The two agree exactly when no start code directly follows another one and none ends the data, with one
exception: `00 00 01` at the very end and directly behind a start code is a NAL unit for both.  On all
other data the encoder's splitter panics, or returns more bytes than the other one.

Main definitions:

* `H264.startCodeLenAt`, `H264.splitAnnexBToNals` — the encoder's splitter;
* `H264.Separated` — what follows each `00 00 01`.

Main results:

* `H264.separated_code3_append` — when data behind a start code is separated;
* `H264.outcome_after` — **what becomes of the data behind a start code**;
* `H264.splitters_agree_iff` — **when the two splitters agree**.
-/

import MibeeEye.AnnexB
import MibeeEye.CaptureSource
import MibeeEye.CheckedReads

set_option relaxedAutoImplicit false
set_option autoImplicit false

namespace H264

open Wire Checked

/-! ### The encoder's splitter -/

/-- `start_code_len_at`. -/
def startCodeLenAt (data : List UInt8) (i : ℕ) : Option ℕ :=
  if i + 4 ≤ data.length ∧ slice data i (i + 4) = [0x00, 0x00, 0x00, 0x01] then some 4
  else if i + 3 ≤ data.length ∧ slice data i (i + 3) = [0x00, 0x00, 0x01] then some 3
  else none

/-- The loop that finds the end of a NAL unit. -/
@[grind =] def boundLoop (annexB : List UInt8) : ℕ → ℕ → Run Empty ℕ
  | 0, _ => .error .outOfFuel
  | fuel + 1, j =>
      if j < annexB.length then
        if (startCodeLenAt annexB j).isSome then .ok j else boundLoop annexB fuel (j + 1)
      else .ok j

/-- What is done with the NAL unit that starts at `nalStart`: where it ends, and the NAL units with
it. -/
def pushNal (annexB : List UInt8) (isKeyframe : Bool) (nalStart : ℕ)
    (nals : List Capture.NalUnit) : Run Empty (ℕ × List Capture.NalUnit) := do
  let j ← boundLoop annexB (annexB.length + 1) (nalStart + 1)
  if nalStart < j then do
    let data ← range annexB nalStart j
    return (j, nals ++ [⟨data, isKeyframe⟩])
  else return (j, nals)

/-- The loop of `split_annex_b_to_nals`. -/
@[grind =] def splitLoop (annexB : List UInt8) (isKeyframe : Bool) :
    ℕ → ℕ → List Capture.NalUnit → Run Empty (List Capture.NalUnit)
  | 0, _, _ => .error .outOfFuel
  | fuel + 1, i, nals =>
      if i < annexB.length then
        match startCodeLenAt annexB i with
        | none => splitLoop annexB isKeyframe fuel (i + 1) nals
        | some scLen => do
            let (j, nals) ← pushNal annexB isKeyframe (i + scLen) nals
            splitLoop annexB isKeyframe fuel j nals
      else .ok nals

/-- **`split_annex_b_to_nals`.** -/
def splitAnnexBToNals (annexB : List UInt8) (isKeyframe : Bool) :
    Run Empty (List Capture.NalUnit) :=
  splitLoop annexB isKeyframe (annexB.length + 1) 0 []

/-! ### The encoder's splitter by what is left -/

/-- A slice that is checked to be there. -/
theorem checked_slice_eq_iff {data code : List UInt8} (i : ℕ) (h : 0 < code.length) :
    (i + code.length ≤ data.length ∧ slice data i (i + code.length) = code) ↔
      code <+: data.drop i := by
  rw [slice_eq_iff rfl]
  refine ⟨fun hslice => hslice.2, fun hprefix => ⟨?_, hprefix⟩⟩
  have hle := hprefix.length_le
  rw [List.length_drop] at hle
  omega

theorem startCodeLenAt_eq (data : List UInt8) (i : ℕ) :
    startCodeLenAt data i = codeLen (data.drop i) := by
  have h4 : (i + 4 ≤ data.length ∧ slice data i (i + 4) = [0x00, 0x00, 0x00, 0x01]) ↔
      code4 <+: data.drop i := @checked_slice_eq_iff data code4 i (by decide)
  have h3 : (i + 3 ≤ data.length ∧ slice data i (i + 3) = [0x00, 0x00, 0x01]) ↔
      code3 <+: data.drop i := @checked_slice_eq_iff data code3 i (by decide)
  simp only [startCodeLenAt, codeLen, h4, h3]

theorem boundLoop_eq {annexB : List UInt8} : ∀ {fuel j : ℕ}, annexB.length ≤ j + fuel →
    boundLoop annexB (fuel + 1) j = .ok (j + gap codeLen (annexB.drop j)) := by
  intro fuel
  induction fuel with
  | zero =>
      intro j h
      rw [boundLoop, if_neg (by omega), List.drop_eq_nil_iff.2 (by omega)]
      rfl
  | succ fuel ih =>
      intro j h
      rw [boundLoop, startCodeLenAt_eq]
      by_cases hlt : j < annexB.length
      · rw [if_pos hlt, List.drop_eq_getElem_cons hlt, gap]
        split
        · rfl
        · rw [ih (by omega), Nat.add_assoc]
      · rw [if_neg hlt, List.drop_eq_nil_iff.2 (by omega)]
        rfl

section Loop

variable {annexB : List UInt8} (isKeyframe : Bool)

/-- A NAL unit that starts at the end of the data is sliced out of range. -/
theorem pushNal_panics {nalStart : ℕ} (nals : List Capture.NalUnit)
    (h : annexB.length ≤ nalStart) : pushNal annexB isKeyframe nalStart nals = panics := by
  rw [pushNal, boundLoop_eq (by omega), ok_bind]
  rw [if_pos (by omega), range_of_lt (by omega), panics_bind]

/-- Any other takes a byte, and all up to the next start code. -/
theorem pushNal_eq {nalStart g : ℕ} (nals : List Capture.NalUnit) (h : nalStart < annexB.length)
    (hg : g = 1 + gap codeLen (annexB.drop (nalStart + 1))) :
    pushNal annexB isKeyframe nalStart nals =
      .ok (nalStart + g, nals ++ [⟨(annexB.drop nalStart).take g, isKeyframe⟩]) := by
  have hle := gap_le codeLen (annexB.drop (nalStart + 1))
  rw [List.length_drop] at hle
  have hj : nalStart + 1 + gap codeLen (annexB.drop (nalStart + 1)) = nalStart + g := by omega
  rw [pushNal, boundLoop_eq (by omega), ok_bind, hj, if_pos (by omega),
    range_eq (by omega) (by omega), ok_bind, Nat.add_sub_cancel_left]
  rfl

theorem splitLoop_end {i fuel : ℕ} (nals : List Capture.NalUnit) (h : annexB.length ≤ i) :
    splitLoop annexB isKeyframe (fuel + 1) i nals = .ok nals := by
  rw [splitLoop, if_neg (by omega)]

/-- The loop at a start code. -/
theorem splitLoop_code {i c fuel : ℕ} (nals : List Capture.NalUnit)
    (h : codeLen (annexB.drop i) = some c) :
    splitLoop annexB isKeyframe (fuel + 1) i nals = (do
      let (j, nals) ← pushNal annexB isKeyframe (i + c) nals
      splitLoop annexB isKeyframe fuel j nals) := by
  have hle := codeLen_le h
  rw [List.length_drop] at hle
  rw [splitLoop, if_pos (by omega), startCodeLenAt_eq, h]

end Loop

/-! ### Separated data -/

/-- Behind each `00 00 01` comes something, which does not begin with `00 00 00 01`, and with
`00 00 01` only if that is the last of the data; the last `00 00 01` of the data may end it if
another stands directly before. -/
def Separated (data : List UInt8) : Prop :=
  ∀ x y, data = x ++ (code3 ++ y) →
    ¬ code4 <+: y ∧ (code3 <+: y → y = code3) ∧ (y = [] → code3 <:+ x)

theorem separated_nil : Separated [] := by
  intro x y h
  have := congrArg List.length h
  simp [code3] at this

/-- A byte at which no `00 00 01` begins does not matter. -/
theorem separated_cons {b : UInt8} {l : List UInt8} (h : ¬ code3 <+: b :: l) :
    Separated (b :: l) ↔ Separated l := by
  constructor
  · intro hsep x y hl
    obtain ⟨h4, h3, hend⟩ := hsep (b :: x) y (by rw [hl, List.cons_append])
    refine ⟨h4, h3, fun hy => ?_⟩
    obtain heq | hx := List.suffix_cons_iff.1 (hend hy)
    · exact absurd ⟨code3 ++ y, by rw [hl, heq, List.cons_append]⟩ h
    · exact hx
  · intro hsep x y hl
    cases x with
    | nil => exact absurd ⟨y, hl.symm⟩ h
    | cons a x =>
        obtain ⟨h4, h3, hend⟩ := hsep x y (List.cons.inj hl).2
        exact ⟨h4, h3, fun hy => (hend hy).trans (List.suffix_cons a x)⟩

theorem not_code3_prefix_of_codeLen {l : List UInt8} (h : codeLen l = none) : ¬ code3 <+: l := by
  intro hprefix
  rw [codeLen, if_pos hprefix] at h
  split at h
  · cases h
  · cases h

theorem not_separated_code3 : ¬ Separated (code3 ++ []) := by
  intro h
  have hnil := (h [] [] rfl).2.2 rfl
  exact absurd hnil (by decide)

theorem not_separated_code4 {l : List UInt8} (h : code4 <+: l) : ¬ Separated (code3 ++ l) :=
  fun hsep => (hsep [] l rfl).1 h

/-- Two start codes of three bytes. -/
theorem separated_code3_code3 {l : List UInt8} (h : code3 <+: l) :
    Separated (code3 ++ l) ↔ l = code3 := by
  constructor
  · intro hsep
    exact (hsep [] l rfl).2.1 h
  · rintro rfl x y hl
    match x, hl with
    | [], hl =>
        cases hl
        exact ⟨by decide, fun _ => rfl, by decide⟩
    | [a], hl => cases hl
    | [a, b], hl => cases hl
    | [a, b, c], hl =>
        cases hl
        exact ⟨by decide, by decide, fun _ => List.suffix_refl _⟩
    | a :: b :: c :: d :: x, hl =>
        have := congrArg List.length hl
        simp only [code3, List.length_append, List.length_cons, List.length_nil] at this
        omega

/-- Something else than a start code behind one. -/
theorem separated_code3_append {l : List UInt8} (hne : l ≠ []) (h : codeLen l = none) :
    Separated (code3 ++ l) ↔ Separated l := by
  have hno3 := not_code3_prefix_of_codeLen h
  have hno4 : ¬ code4 <+: l := by
    intro hprefix
    rw [codeLen, if_pos hprefix] at h
    cases h
  constructor
  · intro hsep x y hl
    obtain ⟨h4, h3, hend⟩ := hsep (code3 ++ x) y (by rw [hl, List.append_assoc])
    refine ⟨h4, h3, fun hy => ?_⟩
    have hsuffix := hend hy
    -- fewer than three bytes after the first start code leave no room for another
    rcases x with _ | ⟨a, _ | ⟨b, _ | ⟨c, x⟩⟩⟩
    · exact absurd ⟨y, hl.symm⟩ hno3
    · simp [code3, List.suffix_iff_eq_drop] at hsuffix
    · simp [code3, List.suffix_iff_eq_drop] at hsuffix
    · refine List.suffix_of_suffix_length_le hsuffix (List.suffix_append code3 _) ?_
      simp [code3]
  · intro hsep x y hl
    rcases x with _ | ⟨a, _ | ⟨b, _ | ⟨c, x⟩⟩⟩
    · have hly : l = y := List.append_cancel_left hl
      subst hly
      exact ⟨hno4, fun h3 => absurd h3 hno3, fun hy => absurd hy hne⟩
    · cases hl
    · cases hl
    · simp only [code3, List.cons_append, List.nil_append, List.cons.injEq] at hl
      obtain ⟨h4, h3, hend⟩ := hsep x y hl.2.2.2
      exact ⟨h4, h3, fun hy => (hend hy).trans (List.suffix_append [a, b, c] x)⟩

/-- What is passed to the next start code does not matter. -/
theorem separated_drop_gap (l : List UInt8) :
    Separated l ↔ Separated (l.drop (gap codeLen l)) := by
  induction l with
  | nil => rfl
  | cons b l ih =>
      cases hcode : codeLen (b :: l) with
      | some c => rw [gap_of_some codeLen hcode, List.drop_zero]
      | none =>
          rw [gap_cons_of_none codeLen hcode, Nat.add_comm, List.drop_succ_cons, ← ih]
          exact separated_cons (not_code3_prefix_of_codeLen hcode)

/-- Data that begins with a start code, by what is behind it. -/
theorem separated_of_codeLen {l : List UInt8} {c : ℕ} (h : codeLen l = some c) :
    Separated l ↔ Separated (code3 ++ l.drop c) := by
  unfold codeLen at h
  split at h
  · rename_i hcode
    cases h
    obtain ⟨r, rfl⟩ := hcode
    exact separated_cons (by rintro ⟨t, ht⟩; cases ht)
  · split at h
    · rename_i hcode
      cases h
      obtain ⟨r, rfl⟩ := hcode
      rfl
    · cases h

/-! ### What becomes of the data behind a start code -/

/-- The number of bytes in NAL units. -/
def bytesIn (nals : List (List UInt8)) : ℕ := nals.flatten.length

theorem bytesIn_append (nals nals' : List (List UInt8)) :
    bytesIn (nals ++ nals') = bytesIn nals + bytesIn nals' := by
  rw [bytesIn, List.flatten_append, List.length_append]
  rfl

theorem bytesIn_singleton (nal : List UInt8) : bytesIn [nal] = nal.length := by
  simp [bytesIn]

/-- A start code that is seen is found by both; one that is not seen ends the data. -/
theorem seen_of_codeLen {l : List UInt8} {c : ℕ} (h : codeLen l = some c) (hlt : c < l.length) :
    seen l = some c := by
  have hle := codeLen_le h
  rw [seen, if_pos (by omega), h]

/-- The gaps of the two splitters are the same up to a start code that both see. -/
theorem gap_seen_eq {l : List UInt8}
    (h : gap codeLen l = l.length ∨ ∃ c, seen (l.drop (gap codeLen l)) = some c) :
    gap seen l = gap codeLen l := by
  induction l with
  | nil => rfl
  | cons b l ih =>
      cases hcode : codeLen (b :: l) with
      | some c =>
          rw [gap_of_some codeLen hcode] at h ⊢
          obtain hlen | ⟨c', hc'⟩ := h
          · cases hlen
          · exact gap_of_some seen hc'
      | none =>
          have hgap := gap_cons_of_none codeLen hcode
          rw [hgap, List.length_cons, Nat.add_comm 1, List.drop_succ_cons] at h
          rw [hgap, gap_cons_of_none seen (seen_eq_none_of_codeLen hcode),
            ih (h.imp_left fun hlen => by omega)]

section Outcome

variable {data : List UInt8}

theorem nalsFrom_of_seen {s c : ℕ} (h : seen (data.drop s) = some c) :
    nalsFrom data s = nalsFrom data (s + c) := by
  have hlt := lt_of_seen h
  rw [nalsFrom_eq (by omega), gap_of_some seen h, if_neg (by omega), Nat.add_zero,
    nalsBetween_codesFrom h]
  rfl

/-- The last NAL unit. -/
theorem nalsFrom_last {s : ℕ} (hs : s < data.length)
    (h : gap seen (data.drop s) = (data.drop s).length) : nalsFrom data s = [data.drop s] := by
  rw [nalsFrom_eq (by omega), h, if_pos (by rw [List.length_drop]; omega), List.take_length,
    codesFrom_of_le (by rw [List.length_drop]; omega)]
  rfl

/-- A NAL unit before a start code, which may be empty. -/
theorem nalsFrom_next {s g c : ℕ} (hs : s ≤ data.length) (hg : gap seen (data.drop s) = g)
    (h : seen (data.drop (s + g)) = some c) :
    nalsFrom data s =
      (if 0 < g then [(data.drop s).take g] else []) ++ nalsFrom data (s + g + c) := by
  rw [nalsFrom_eq hs, hg, nalsBetween_codesFrom h]

theorem bytesIn_nalsFrom_next {s g c : ℕ} (hs : s ≤ data.length)
    (hg : gap seen (data.drop s) = g) (h : seen (data.drop (s + g)) = some c) :
    bytesIn (nalsFrom data s) = g + bytesIn (nalsFrom data (s + g + c)) := by
  have hle := gap_le seen (data.drop s)
  rw [nalsFrom_next hs hg h, bytesIn_append]
  split
  · rw [bytesIn_singleton, List.length_take]
    omega
  · have hzero : bytesIn [] = 0 := rfl
    omega

/-- The encoder's splitter on the data behind a start code, with the NAL units so far. -/
def splitAfter (data : List UInt8) (isKeyframe : Bool) (fuel s : ℕ)
    (nals : List Capture.NalUnit) : Run Empty (List Capture.NalUnit) := do
  let (j, nals) ← pushNal data isKeyframe s nals
  splitLoop data isKeyframe fuel j nals

/-- What the encoder's splitter returned, against the other one: the same when the data is
separated, and otherwise nothing, or more bytes. -/
def Outcome (data : List UInt8) (isKeyframe : Bool) (s : ℕ) (nals : List Capture.NalUnit)
    (result : Run Empty (List Capture.NalUnit)) : Prop :=
  (Separated (code3 ++ data.drop s) ∧
    result = .ok (nals ++ (nalsFrom data s).map (⟨·, isKeyframe⟩))) ∨
  (¬ Separated (code3 ++ data.drop s) ∧ (result = panics ∨ ∃ all, result = .ok all ∧
    bytesIn (nals.map (·.data)) + bytesIn (nalsFrom data s) < bytesIn (all.map (·.data))))

variable {isKeyframe : Bool} {s : ℕ} {nals : List Capture.NalUnit}
  {result : Run Empty (List Capture.NalUnit)}

theorem map_data_map (nals : List (List UInt8)) (isKeyframe : Bool) :
    (nals.map fun nal => (⟨nal, isKeyframe⟩ : Capture.NalUnit)).map (·.data) = nals := by
  rw [List.map_map]
  exact List.map_id nals

/-- There are never fewer bytes. -/
theorem Outcome.le (h : Outcome data isKeyframe s nals result) :
    result = panics ∨ ∃ all, result = .ok all ∧
      bytesIn (nals.map (·.data)) + bytesIn (nalsFrom data s) ≤ bytesIn (all.map (·.data)) := by
  obtain ⟨-, hok⟩ | ⟨-, hpanics | ⟨all, hok, hlt⟩⟩ := h
  · refine .inr ⟨_, hok, ?_⟩
    rw [List.map_append, bytesIn_append, map_data_map]
  · exact .inl hpanics
  · exact .inr ⟨all, hok, hlt.le⟩

/-- Data that is not separated, after a NAL unit that the other splitter does not have all of. -/
theorem Outcome.of_more {s' : ℕ} {nal : Capture.NalUnit}
    (hsep : ¬ Separated (code3 ++ data.drop s))
    (hmore : bytesIn (nalsFrom data s) < nal.data.length + bytesIn (nalsFrom data s'))
    (h : Outcome data isKeyframe s' (nals ++ [nal]) result) :
    Outcome data isKeyframe s nals result := by
  refine .inr ⟨hsep, h.le.imp_right ?_⟩
  rintro ⟨all, hok, hle⟩
  rw [List.map_append, bytesIn_append, List.map_singleton, bytesIn_singleton] at hle
  exact ⟨all, hok, by omega⟩

/-- A NAL unit that both have. -/
theorem Outcome.of_same {s' : ℕ} {nal : List UInt8}
    (hsep : Separated (code3 ++ data.drop s) ↔ Separated (code3 ++ data.drop s'))
    (hsame : nalsFrom data s = nal :: nalsFrom data s')
    (h : Outcome data isKeyframe s' (nals ++ [⟨nal, isKeyframe⟩]) result) :
    Outcome data isKeyframe s nals result := by
  obtain ⟨hyes, hok⟩ | ⟨hno, hor⟩ := h
  · refine .inl ⟨hsep.2 hyes, ?_⟩
    rw [hok, hsame, List.append_assoc]
    rfl
  · refine .inr ⟨fun hyes => hno (hsep.1 hyes), hor.imp_right ?_⟩
    rintro ⟨all, hok, hlt⟩
    rw [List.map_append, bytesIn_append, List.map_singleton, bytesIn_singleton] at hlt
    refine ⟨all, hok, ?_⟩
    have hcons : bytesIn (nal :: nalsFrom data s') = nal.length + bytesIn (nalsFrom data s') := by
      rw [← List.singleton_append, bytesIn_append, bytesIn_singleton]
    rw [hsame, hcons]
    dsimp only at hlt
    omega

/-- A start code that ends the data. -/
theorem splitAfter_panics {fuel : ℕ} (hs : data.length ≤ s) :
    splitAfter data isKeyframe fuel s nals = panics := by
  rw [splitAfter, pushNal_panics isKeyframe nals hs, panics_bind]

/-- One turn of the encoder's splitter behind a start code: a NAL unit of `g` bytes, and then the
end of the data or another start code. -/
theorem splitAfter_eq {g fuel : ℕ} (hs : s < data.length)
    (hg : g = 1 + gap codeLen (data.drop (s + 1))) :
    splitAfter data isKeyframe (fuel + 1) s nals =
      match codeLen (data.drop (s + g)) with
      | some c => splitAfter data isKeyframe fuel (s + g + c)
          (nals ++ [⟨(data.drop s).take g, isKeyframe⟩])
      | none => .ok (nals ++ [⟨data.drop s, isKeyframe⟩]) := by
  have hle := gap_le codeLen (data.drop (s + 1))
  rw [List.length_drop] at hle
  rw [splitAfter, pushNal_eq isKeyframe nals hs hg, ok_bind]
  dsimp only
  cases hcode : codeLen (data.drop (s + g)) with
  | some c => exact splitLoop_code isKeyframe _ hcode
  | none =>
      -- the gap ends with the data
      have hend : ¬ gap codeLen (data.drop (s + 1)) < (data.drop (s + 1)).length := by
        intro hlt
        obtain ⟨c, hc⟩ := isSome_of_gap_lt codeLen hlt
        rw [List.drop_drop, show s + 1 + gap codeLen (data.drop (s + 1)) = s + g by omega,
          hcode] at hc
        cases hc
      rw [List.length_drop] at hend
      rw [splitLoop_end isKeyframe _ (by omega), List.take_of_length_le]
      rw [List.length_drop]
      omega

end Outcome

/-- The second and third byte of `00 00 01` are passed. -/
theorem gap_codeLen_zero_one (l : List UInt8) :
    gap codeLen (0x00 :: 0x01 :: l) = 2 + gap codeLen l := by
  have hzero : codeLen (0x00 :: 0x01 :: l) = none := by
    apply codeLen_eq_none
    intro x r _ h
    cases h
  have hone : codeLen (0x01 :: l) = none := by
    apply codeLen_eq_none
    intro x r _ h
    cases h
  rw [gap_cons_of_none codeLen hzero, gap_cons_of_none codeLen hone]
  omega

section Outcome

variable {data : List UInt8} {isKeyframe : Bool}

/-- A start code of four bytes directly behind one: its first byte becomes a NAL unit. -/
theorem outcome_code4 {s fuel : ℕ} {nals : List Capture.NalUnit} (h : code4 <+: data.drop s)
    (ih : ∀ s nals, s ≤ data.length → data.length < s + fuel →
      Outcome data isKeyframe s nals (splitAfter data isKeyframe fuel s nals))
    (hfuel : data.length < s + (fuel + 1)) :
    Outcome data isKeyframe s nals (splitAfter data isKeyframe (fuel + 1) s nals) := by
  obtain ⟨r, hr⟩ := h
  have hlen : data.length - s = 4 + r.length := by
    rw [← List.length_drop, ← hr, List.length_append]
    rfl
  have hnext : data.drop (s + 1) = code3 ++ r := by
    rw [← List.drop_drop, ← hr]
    rfl
  have hcode : codeLen (data.drop (s + 1)) = some 3 := by
    rw [hnext]
    exact (if_neg (by rintro ⟨t, ht⟩; cases ht)).trans (if_pos ⟨r, rfl⟩)
  have hseen : seen (data.drop s) = some 4 := by
    rw [seen, if_pos (by rw [List.length_drop]; omega), ← hr]
    exact if_pos ⟨r, rfl⟩
  have hnot : ¬ Separated (code3 ++ data.drop s) := not_separated_code4 ⟨r, hr⟩
  rw [splitAfter_eq (by omega) (g := 1) (by rw [gap_of_some codeLen hcode]), hcode]
  refine (ih _ _ (by omega) (by omega)).of_more hnot ?_
  rw [nalsFrom_of_seen hseen, List.length_take, List.length_drop, show s + 1 + 3 = s + 4 from rfl]
  omega

/-- One of three bytes becomes the beginning of a NAL unit. -/
theorem outcome_code3 {s fuel : ℕ} {nals : List Capture.NalUnit} (h : code3 <+: data.drop s)
    (ih : ∀ s nals, s ≤ data.length → data.length < s + fuel →
      Outcome data isKeyframe s nals (splitAfter data isKeyframe fuel s nals))
    (hfuel : data.length < s + (fuel + 1)) :
    Outcome data isKeyframe s nals (splitAfter data isKeyframe (fuel + 1) s nals) := by
  have hsep := separated_code3_code3 h
  obtain ⟨r, hr⟩ := h
  have hlen : data.length - s = 3 + r.length := by
    rw [← List.length_drop, ← hr, List.length_append]
    rfl
  have hthree : data.drop (s + 3) = r := by
    rw [← List.drop_drop, ← hr]
    rfl
  have hone : data.drop (s + 1) = 0x00 :: 0x01 :: r := by
    rw [← List.drop_drop, ← hr]
    rfl
  have hg : 3 + gap codeLen r = 1 + gap codeLen (data.drop (s + 1)) := by
    rw [hone, gap_codeLen_zero_one]
    omega
  have hgle := gap_le codeLen r
  have hdrop : data.drop (s + (3 + gap codeLen r)) = r.drop (gap codeLen r) := by
    rw [← Nat.add_assoc, ← List.drop_drop, hthree]
  rw [splitAfter_eq (by omega) hg]
  by_cases hnil : r = []
  · -- both have it as their last NAL unit
    subst hnil
    have hlast : nalsFrom data s = [data.drop s] := by
      refine nalsFrom_last (by omega) ?_
      rw [← hr]
      decide
    rw [hdrop]
    exact .inl ⟨hsep.2 hr.symm, by rw [hlast]; rfl⟩
  have hpos : 0 < r.length := List.length_pos_of_ne_nil hnil
  have hnot : ¬ Separated (code3 ++ data.drop s) := by
    intro hyes
    have := congrArg List.length (hsep.1 hyes)
    rw [List.length_drop] at this
    change data.length - s = 3 at this
    omega
  have hcode3 : codeLen (data.drop s) = some 3 := by
    rw [← hr]
    exact (if_neg (by rintro ⟨t, ht⟩; cases ht)).trans (if_pos ⟨r, rfl⟩)
  have hskip : nalsFrom data s = nalsFrom data (s + 3) :=
    nalsFrom_of_seen (seen_of_codeLen hcode3 (by rw [List.length_drop]; omega))
  cases hcode : codeLen (data.drop (s + (3 + gap codeLen r))) with
  | none =>
      have hall : gap codeLen r = r.length := by
        by_contra hne
        obtain ⟨c, hc⟩ := isSome_of_gap_lt codeLen (by omega : gap codeLen r < r.length)
        rw [← hdrop, hcode] at hc
        cases hc
      have hlast : nalsFrom data (s + 3) = [r] := by
        have hgap : gap seen (data.drop (s + 3)) = (data.drop (s + 3)).length := by
          rw [hthree, gap_seen_eq (.inl hall), hall]
        rw [nalsFrom_last (by omega) hgap, hthree]
      refine .inr ⟨hnot, .inr ⟨_, rfl, ?_⟩⟩
      rw [hskip, hlast, List.map_append, bytesIn_append, List.map_singleton, bytesIn_singleton,
        bytesIn_singleton, List.length_drop]
      omega
  | some c =>
      by_cases hend : data.length ≤ s + (3 + gap codeLen r) + c
      · exact .inr ⟨hnot, .inl (splitAfter_panics hend)⟩
      have hseen : seen (data.drop (s + (3 + gap codeLen r))) = some c :=
        seen_of_codeLen hcode (by rw [List.length_drop]; omega)
      have hgap : gap seen (data.drop (s + 3)) = gap codeLen r := by
        rw [hthree]
        exact gap_seen_eq (.inr ⟨c, by rw [← hdrop]; exact hseen⟩)
      refine (ih _ _ (by omega) (by omega)).of_more hnot ?_
      rw [hskip, bytesIn_nalsFrom_next (by omega) hgap (by rw [Nat.add_assoc]; exact hseen),
        List.length_take, List.length_drop, Nat.add_assoc s 3]
      omega

/-- Something else: a NAL unit that both have, unless a start code behind it ends the data. -/
theorem outcome_nal {s fuel : ℕ} {nals : List Capture.NalUnit} (hs : s < data.length)
    (h : codeLen (data.drop s) = none)
    (ih : ∀ s nals, s ≤ data.length → data.length < s + fuel →
      Outcome data isKeyframe s nals (splitAfter data isKeyframe fuel s nals))
    (hfuel : data.length < s + (fuel + 1)) :
    Outcome data isKeyframe s nals (splitAfter data isKeyframe (fuel + 1) s nals) := by
  have hcons := List.drop_eq_getElem_cons hs
  have hne : data.drop s ≠ [] := by
    rw [hcons]
    exact List.cons_ne_nil _ _
  have hg : gap codeLen (data.drop s) = 1 + gap codeLen (data.drop (s + 1)) := by
    rw [hcons] at h ⊢
    exact gap_cons_of_none codeLen h
  have hgle := gap_le codeLen (data.drop s)
  have hsep : Separated (code3 ++ data.drop s) ↔
      Separated (data.drop (s + gap codeLen (data.drop s))) := by
    rw [separated_code3_append hne h, separated_drop_gap, List.drop_drop]
  rw [List.length_drop] at hgle
  rw [splitAfter_eq hs hg]
  cases hcode : codeLen (data.drop (s + gap codeLen (data.drop s))) with
  | none =>
      have hall : gap codeLen (data.drop s) = (data.drop s).length := by
        by_contra hlt
        obtain ⟨c, hc⟩ := isSome_of_gap_lt codeLen
          (by rw [List.length_drop] at hlt ⊢; omega :
            gap codeLen (data.drop s) < (data.drop s).length)
        rw [List.drop_drop, hcode] at hc
        cases hc
      have hlast : nalsFrom data s = [data.drop s] := by
        refine nalsFrom_last hs ?_
        rw [gap_seen_eq (.inl hall), hall]
      have hnil : data.drop (s + gap codeLen (data.drop s)) = [] := by
        rw [List.drop_eq_nil_iff, hall, List.length_drop]
        omega
      refine .inl ⟨hsep.2 ?_, by rw [hlast]; rfl⟩
      rw [hnil]
      exact separated_nil
  | some c =>
      have hsep' : Separated (code3 ++ data.drop s) ↔
          Separated (code3 ++ data.drop (s + gap codeLen (data.drop s) + c)) := by
        rw [hsep, separated_of_codeLen hcode, List.drop_drop]
      by_cases hend : data.length ≤ s + gap codeLen (data.drop s) + c
      · refine .inr ⟨?_, .inl (splitAfter_panics hend)⟩
        rw [hsep', List.drop_eq_nil_iff.2 hend]
        exact not_separated_code3
      have hseen : seen (data.drop (s + gap codeLen (data.drop s))) = some c :=
        seen_of_codeLen hcode (by rw [List.length_drop]; omega)
      have hgap : gap seen (data.drop s) = gap codeLen (data.drop s) :=
        gap_seen_eq (.inr ⟨c, by rw [List.drop_drop]; exact hseen⟩)
      refine (ih _ _ (by omega) (by omega)).of_same hsep' ?_
      rw [nalsFrom_next (by omega) hgap hseen, if_pos (by omega)]
      rfl

/-- **What becomes of the data behind a start code.** -/
theorem outcome_after : ∀ (fuel s : ℕ) (nals : List Capture.NalUnit), s ≤ data.length →
    data.length < s + fuel →
    Outcome data isKeyframe s nals (splitAfter data isKeyframe fuel s nals) := by
  intro fuel
  induction fuel with
  | zero =>
      intro s nals hs hfuel
      omega
  | succ fuel ih =>
      intro s nals hs hfuel
      by_cases hend : data.length ≤ s
      · refine .inr ⟨?_, .inl (splitAfter_panics hend)⟩
        rw [List.drop_eq_nil_iff.2 hend]
        exact not_separated_code3
      by_cases h4 : code4 <+: data.drop s
      · exact outcome_code4 h4 ih hfuel
      by_cases h3 : code3 <+: data.drop s
      · exact outcome_code3 h3 ih hfuel
      · exact outcome_nal (by omega) (by rw [codeLen, if_neg h4, if_neg h3]) ih hfuel

end Outcome

/-! ### The two splitters -/

/-- The encoder's splitter returned the same exactly when the data behind the start code is
separated. -/
theorem Outcome.eq_iff {data : List UInt8} {isKeyframe : Bool} {s : ℕ}
    {result : Run Empty (List Capture.NalUnit)} (h : Outcome data isKeyframe s [] result) :
    result = .ok ((nalsFrom data s).map (⟨·, isKeyframe⟩)) ↔
      Separated (code3 ++ data.drop s) := by
  obtain ⟨hyes, hok⟩ | ⟨hno, hpanics | ⟨all, hok, hlt⟩⟩ := h
  · exact iff_of_true hok hyes
  · rw [hpanics]
    exact iff_of_false (fun hcontra => by cases hcontra) hno
  · refine iff_of_false ?_ hno
    rw [hok]
    intro hsame
    rw [Except.ok.inj hsame, map_data_map] at hlt
    omega

/-- **The splitters agree exactly on separated data.** -/
theorem splitters_agree_iff (data : List UInt8) (isKeyframe : Bool)
    (hbegins : (codeLen data).isSome) :
    splitAnnexBToNals data isKeyframe = .ok ((splitNalUnits data).map (⟨·, isKeyframe⟩)) ↔
      Separated data := by
  obtain ⟨c, hcode⟩ := Option.isSome_iff_exists.1 hbegins
  have hle := codeLen_le hcode
  have hstart : splitAnnexBToNals data isKeyframe =
      splitAfter data isKeyframe data.length (0 + c) [] :=
    splitLoop_code (i := 0) isKeyframe [] hcode
  rw [hstart, Nat.zero_add, separated_of_codeLen hcode]
  by_cases hlt : c < data.length
  · rw [splitNalUnits_eq (seen_of_codeLen hcode hlt)]
    exact (outcome_after _ _ _ (by omega) (by omega)).eq_iff
  · -- the data is the start code
    rw [splitAfter_panics (by omega), List.drop_eq_nil_iff.2 (by omega)]
    exact iff_of_false (fun hcontra => by cases hcontra) not_separated_code3

/-- Two NAL units, the second behind three zero bytes. -/
theorem splitters_agree_iff_two :
    (codeLen [0x00, 0x00, 0x01, 0x67, 0x00, 0x00, 0x00, 0x01, 0x65]).isSome ∧
    (splitAnnexBToNals [0x00, 0x00, 0x01, 0x67, 0x00, 0x00, 0x00, 0x01, 0x65] true =
      .ok ((splitNalUnits [0x00, 0x00, 0x01, 0x67, 0x00, 0x00, 0x00, 0x01, 0x65]).map
        (⟨·, true⟩)) ↔
      Separated [0x00, 0x00, 0x01, 0x67, 0x00, 0x00, 0x00, 0x01, 0x65]) :=
  ⟨by decide, splitters_agree_iff _ true (by decide)⟩

/-- **A start code at the end makes the encoder's splitter panic**, and one directly behind another
ends up in a NAL unit. -/
theorem splitters_disagree :
    splitAnnexBToNals [0x00, 0x00, 0x01, 0x65, 0x00, 0x00, 0x00, 0x01] true = panics ∧
      splitNalUnits [0x00, 0x00, 0x01, 0x65, 0x00, 0x00, 0x00, 0x01] = [[0x65]] ∧
      splitAnnexBToNals [0x00, 0x00, 0x01, 0x00, 0x00, 0x01, 0x65] true =
        .ok [⟨[0x00, 0x00, 0x01, 0x65], true⟩] ∧
      splitNalUnits [0x00, 0x00, 0x01, 0x00, 0x00, 0x01, 0x65] = [[0x65]] ∧
      splitAnnexBToNals [0x00, 0x00, 0x01, 0x65, 0x00, 0x00, 0x00, 0x01] true ≠
        .ok ((splitNalUnits [0x00, 0x00, 0x01, 0x65, 0x00, 0x00, 0x00, 0x01]).map (⟨·, true⟩)) ∧
      splitAnnexBToNals [0x00, 0x00, 0x01, 0x00, 0x00, 0x01, 0x65] true ≠
        .ok ((splitNalUnits [0x00, 0x00, 0x01, 0x00, 0x00, 0x01, 0x65]).map (⟨·, true⟩)) := by
  decide

end H264

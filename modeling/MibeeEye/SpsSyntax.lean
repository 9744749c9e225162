/-
**Sequence parameter sets, written and read.**

The syntax of a sequence parameter set up to its cropping, as bits, and the NAL unit that carries it:
a header, and the bytes with an emulation prevention byte wherever three of them would look like a
start code.  `parse_sps` takes the bytes of the NAL unit for those of the parameter set; it turns the
sign of the deltas of a scaling list round, and reads eight lists for every chroma format.

Main definitions:

* `H264.Transmitted` — the deltas of a scaling list that are transmitted;
* `H264.SpsSyntax`, `H264.SpsSyntax.bits`, `H264.SpsSyntax.params` — a parameter set, its bits, and
  what a parser has to return;
* `H264.escape` — the emulation prevention bytes;
* `H264.SpsUnit` — a NAL unit with a parameter set.

Main results:

* `H264.readScalingList_iff` — the scaling lists that are read as such;
* `H264.parseSps_nal` — **which parameter sets are read**.
-/

import MibeeEye.SpsParser

set_option relaxedAutoImplicit false
set_option autoImplicit false

namespace H264

open Checked CodeReaders ExpGolomb

/-! ### Syntax -/

/-- The unsigned numbers that have a code of a `u32`. -/
abbrev Ue := { v : ℕ // v < 2 ^ 32 - 1 }

/-- The signed numbers that have a code of an `i32`. -/
abbrev Se := { v : ℤ // |v| < 2 ^ 31 }

/-- The deltas that are transmitted for the last `n` scales of a list: none after a scale of zero. -/
def Transmitted : ℕ → ℤ → List ℤ → Prop
  | 0, _, deltas => deltas = []
  | _ + 1, _, [] => False
  | n + 1, lastScale, deltaScale :: deltas =>
      (-128 ≤ deltaScale ∧ deltaScale ≤ 127) ∧
        let nextScale := (lastScale + deltaScale + 256) % 256
        if nextScale = 0 then deltas = [] else Transmitted n nextScale deltas

instance decidableTransmitted : ∀ n lastScale deltas, Decidable (Transmitted n lastScale deltas)
  | 0, _, deltas => inferInstanceAs (Decidable (deltas = []))
  | _ + 1, _, [] => inferInstanceAs (Decidable False)
  | n + 1, lastScale, deltaScale :: deltas =>
      have := decidableTransmitted n ((lastScale + deltaScale + 256) % 256) deltas
      inferInstanceAs (Decidable ((-128 ≤ deltaScale ∧ deltaScale ≤ 127) ∧
        if (lastScale + deltaScale + 256) % 256 = 0 then deltas = []
        else Transmitted n ((lastScale + deltaScale + 256) % 256) deltas))

/-- The parameters of the high profiles. -/
structure HighSyntax where
  chromaFormatIdc : Fin 4
  /-- `separate_colour_plane_flag`, for 4:4:4 -/
  separateColourPlaneFlag : Option Bool
  bitDepthLumaMinus8 : Ue
  bitDepthChromaMinus8 : Ue
  qpprimeYZeroTransformBypassFlag : Bool
  /-- the scaling lists, some of which may be absent -/
  scalingMatrix : Option (List (Option (List ℤ)))
  separate : separateColourPlaneFlag.isSome = decide (chromaFormatIdc.val = 3) := by decide
  transmitted : ∀ lists ∈ scalingMatrix,
    List.Forall₂ (fun size list => ∀ deltas ∈ list, Transmitted size 8 deltas)
      (scalingSizes (if chromaFormatIdc = 3 then 12 else 8)) lists := by decide

/-- The parameters of the order of pictures, by `pic_order_cnt_type`. -/
inductive PicOrderCnt
  | lsb (log2MaxPicOrderCntLsbMinus4 : Ue)
  | cycle (deltaPicOrderAlwaysZeroFlag : Bool) (offsetForNonRefPic offsetForTopToBottomField : Se)
      (offsetForRefFrame : { l : List Se // l.length < 2 ^ 32 - 1 })
  /-- the order of output, which has none -/
  | output (picOrderCntType : { k : Ue // 2 ≤ k.val })

/-- The offsets of the cropping. -/
structure Cropping where
  left : Ue
  right : Ue
  top : Ue
  bottom : Ue

/-- **A sequence parameter set**, up to its cropping. -/
structure SpsSyntax where
  profileIdc : UInt8
  constraintFlags : UInt8
  levelIdc : UInt8
  seqParameterSetId : Ue
  high : Option HighSyntax
  log2MaxFrameNumMinus4 : Ue
  picOrderCnt : PicOrderCnt
  maxNumRefFrames : Ue
  gapsInFrameNumValueAllowedFlag : Bool
  picWidthInMbsMinus1 : Ue
  picHeightInMapUnitsMinus1 : Ue
  /-- `mb_adaptive_frame_field_flag`, where `frame_mbs_only_flag` is not set -/
  mbAdaptiveFrameFieldFlag : Option Bool
  direct8x8InferenceFlag : Bool
  frameCropping : Option Cropping
  profile : high.isSome = highProfiles.contains profileIdc := by decide

/-! ### Bits -/

/-- A flag, and a code where it is set. -/
def flagBits {α : Type} (o : Option α) (code : α → List Bool) : List Bool :=
  o.isSome :: o.elim [] code

/-- The bits of a scaling list. -/
def scalingBits (deltas : List ℤ) : List Bool := deltas.flatMap seCode

def HighSyntax.bits (h : HighSyntax) : List Bool :=
  ueCode h.chromaFormatIdc ++ (h.separateColourPlaneFlag.elim [] ([·]) ++
    (ueCode h.bitDepthLumaMinus8 ++ (ueCode h.bitDepthChromaMinus8 ++
      ([h.qpprimeYZeroTransformBypassFlag] ++
        flagBits h.scalingMatrix fun lists => lists.flatMap fun list => flagBits list scalingBits))))

def PicOrderCnt.bits : PicOrderCnt → List Bool
  | .lsb log2MaxPicOrderCntLsbMinus4 => ueCode 0 ++ ueCode log2MaxPicOrderCntLsbMinus4
  | .cycle deltaPicOrderAlwaysZeroFlag offsetForNonRefPic offsetForTopToBottomField
      offsetForRefFrame =>
      ueCode 1 ++ ([deltaPicOrderAlwaysZeroFlag] ++ (seCode offsetForNonRefPic ++
        (seCode offsetForTopToBottomField ++ (ueCode offsetForRefFrame.val.length ++
          offsetForRefFrame.val.flatMap fun v : Se => seCode v))))
  | .output picOrderCntType => ueCode picOrderCntType.val

def Cropping.bits (c : Cropping) : List Bool :=
  ueCode c.left ++ (ueCode c.right ++ (ueCode c.top ++ ueCode c.bottom))

/-- **The bits of a parameter set.** -/
def SpsSyntax.bits (s : SpsSyntax) : List Bool :=
  digits 8 s.profileIdc.toNat ++ (digits 8 s.constraintFlags.toNat ++
    (digits 8 s.levelIdc.toNat ++ (ueCode s.seqParameterSetId ++
      (s.high.elim [] HighSyntax.bits ++ (ueCode s.log2MaxFrameNumMinus4 ++
        (s.picOrderCnt.bits ++ (ueCode s.maxNumRefFrames ++
          ([s.gapsInFrameNumValueAllowedFlag] ++ (ueCode s.picWidthInMbsMinus1 ++
            (ueCode s.picHeightInMapUnitsMinus1 ++ ([s.mbAdaptiveFrameFieldFlag.isNone] ++
              (s.mbAdaptiveFrameFieldFlag.elim [] ([·]) ++ ([s.direct8x8InferenceFlag] ++
                flagBits s.frameCropping Cropping.bits)))))))))))))

/-- The offsets that are encoded. -/
def Cropping.params (c : Cropping) : FrameCropping := ⟨c.left, c.right, c.top, c.bottom⟩

/-- **What is encoded**, as `parse_sps` returns it. -/
def SpsSyntax.params (s : SpsSyntax) : SpsParams where
  profileIdc := s.profileIdc
  constraintFlags := [s.constraintFlags, 0, 0]
  levelIdc := s.levelIdc
  seqParameterSetId := s.seqParameterSetId
  chromaFormatIdc := (s.high.map fun h => h.chromaFormatIdc.val).getD 1
  picWidthInMbsMinus1 := s.picWidthInMbsMinus1
  picHeightInMapUnitsMinus1 := s.picHeightInMapUnitsMinus1
  frameCroppingFlag := s.frameCropping.isSome
  frameCropping := s.frameCropping.map Cropping.params

/-! ### NAL units -/

/-- Bytes behind a number of zeros, with an emulation prevention byte before each that would look like
the end of a start code or be one itself. -/
def escapeFrom : ℕ → List UInt8 → List UInt8
  | _, [] => []
  | zeros, b :: data =>
      let zeros' := if b = 0 then 1 else 0
      if 2 ≤ zeros ∧ b ≤ 3 then 3 :: b :: escapeFrom zeros' data
      else b :: escapeFrom (if b = 0 then zeros + 1 else 0) data

/-- The bytes of a NAL unit behind its header. -/
def escape (rbsp : List UInt8) : List UInt8 := escapeFrom 0 rbsp

/-- **A NAL unit with a parameter set**: what stands behind the cropping is left open. -/
structure SpsUnit where
  sps : SpsSyntax
  nalRefIdc : Fin 4
  rbsp : List UInt8
  carries : sps.bits <+: stream rbsp := by decide

/-- Its bytes. -/
def SpsUnit.nal (u : SpsUnit) : List UInt8 := UInt8.ofNat (32 * u.nalRefIdc + 7) :: escape u.rbsp

/-! ### Scaling lists -/

/-- **The scaling lists that are read as such**: every delta is there, and no sum of the first ones is
8 more than a multiple of 256 before the last. -/
def InFull (size : ℕ) (deltas : List ℤ) : Prop :=
  deltas.length = size ∧ ∀ k < size, (deltas.take k).sum % 256 ≠ 8

instance (size : ℕ) (deltas : List ℤ) : Decidable (InFull size deltas) :=
  inferInstanceAs (Decidable (_ ∧ _))

theorem scalingBits_cons (d : ℤ) (deltas : List ℤ) :
    scalingBits (d :: deltas) = seCode d ++ scalingBits deltas := by
  rw [scalingBits, List.flatMap_cons, scalingBits]

/-- A remainder with the sign of what is divided. -/
theorem tmod_bounds (a : ℤ) :
    (-256 < a.tmod 256 ∧ a.tmod 256 < 256) ∧ a.tmod 256 % 256 = a % 256 := by
  have hdiv := Int.mul_tdiv_add_tmod a 256
  exact ⟨⟨Int.lt_tmod_of_pos a (by omega), Int.tmod_lt_of_pos a (by omega)⟩, by omega⟩

section Scaling

variable {n : ℕ} {lastScale nextScale sum d : ℤ} {deltas : List ℤ} {bits bits' : BitIter}

/-- A round of the loop that reads a delta. -/
theorem readScalingListF_succ (hnext : nextScale ≠ 0) :
    readScalingListF (n + 1) lastScale nextScale = fun bits =>
      readSignedExpGolomb bits >>= fun read =>
        if -2 ^ 31 ≤ lastScale + read.1 ∧ lastScale + read.1 < 2 ^ 31 then
          let nextScale := (lastScale + read.1).tmod 256
          readScalingListF n (if nextScale = 0 then 8 else nextScale) nextScale read.2
        else panics := by
  funext bits
  rw [readScalingListF, if_pos hnext]

theorem reads_delta (hd : -128 ≤ d ∧ d ≤ 127) : Reads readSignedExpGolomb (seCode d) (-d) :=
  reads_readSignedExpGolomb (abs_lt.mpr (by omega))

/-- The deltas of the rest of a list, of which `sum` is the sum of those before them. -/
theorem reads_scalingListF (hnext : nextScale ≠ 0) (hlast : -256 < lastScale ∧ lastScale < 256)
    (hsum : (lastScale + sum) % 256 = 8) (hd : ∀ d ∈ deltas, -128 ≤ d ∧ d ≤ 127)
    (hfull : ∀ k < deltas.length, (sum + (deltas.take k).sum) % 256 ≠ 8) :
    Reads (readScalingListF deltas.length lastScale nextScale) (scalingBits deltas) () := by
  induction deltas generalizing lastScale nextScale sum with
  | nil => exact Reads.pure ()
  | cons d deltas ih =>
      obtain ⟨hbound, hmod⟩ := tmod_bounds (lastScale - d)
      have hd' := hd d (List.mem_cons_self ..)
      -- what is left after this delta
      have hrest : Reads (fun bits =>
          let nextScale := (lastScale - d).tmod 256
          readScalingListF deltas.length (if nextScale = 0 then 8 else nextScale) nextScale bits)
          (scalingBits deltas) () := by
        cases deltas with
        | nil => exact Reads.pure ()
        | cons e deltas =>
            have hone := hfull 1 (by simp)
            simp only [List.take_succ_cons, List.take_zero, List.sum_cons, List.sum_nil] at hone
            have hnext' : (lastScale - d).tmod 256 ≠ 0 := by omega
            dsimp only
            rw [if_neg hnext']
            refine ih hnext' hbound (show (_ + (sum + d)) % 256 = 8 by omega)
              (fun e he => hd e (List.mem_cons_of_mem _ he)) fun k hk => ?_
            have := hfull (k + 1) (by simpa using hk)
            rwa [List.take_succ_cons, List.sum_cons, ← add_assoc] at this
      rw [List.length_cons, readScalingListF_succ hnext, scalingBits_cons]
      refine (reads_delta hd').bind ?_
      have hfits : -2 ^ 31 ≤ lastScale - d ∧ lastScale - d < 2 ^ 31 := by omega
      simpa only [if_pos hfits, ← sub_eq_add_neg] using hrest

/-- A list that is read as long as its scales are not zero. -/
theorem readScalingListF_zero (n : ℕ) (lastScale : ℤ) (bits : BitIter) :
    readScalingListF n lastScale 0 bits = .ok ((), bits) := by
  induction n generalizing lastScale with
  | zero => rfl
  | succ n ih =>
      rw [readScalingListF, if_neg (by simp)]
      exact ih 8

/-- What the signed reader returns stands behind a code. -/
theorem exists_skip_of_readSigned {v : ℤ} (h : readSignedExpGolomb bits = .ok (v, bits')) :
    ∃ k, 0 < k ∧ bits' = bits.skip k := by
  cases hread : readExpGolomb bits with
  | error fault =>
      rw [readSignedExpGolomb, hread] at h
      cases h
  | ok read =>
      obtain ⟨v, bits''⟩ := read
      rw [readSignedExpGolomb_of_ok hread] at h
      cases h
      obtain ⟨bs, hcode, -⟩ := ueCode_eq v
      refine ⟨_, ?_, (readExpGolomb_eq_ok_iff.mp hread).2.2⟩
      rw [hcode]
      simp

/-- A list whose next scale is not zero takes some bits. -/
theorem exists_skip_of_readScalingListF (hn : n ≠ 0) (hnext : nextScale ≠ 0)
    (h : readScalingListF n lastScale nextScale bits = .ok ((), bits')) :
    ∃ k, 0 < k ∧ bits' = bits.skip k := by
  induction n generalizing lastScale nextScale bits with
  | zero => exact absurd rfl hn
  | succ n ih =>
      rw [readScalingListF_succ hnext] at h
      dsimp only at h
      cases hread : readSignedExpGolomb bits with
      | error fault =>
          rw [hread] at h
          cases h
      | ok read =>
          obtain ⟨k, hk, hskip⟩ := exists_skip_of_readSigned hread
          rw [hread, ok_bind] at h
          split at h
          · -- the rest of the list takes no bits, or some more
            by_cases hn' : n = 0
            · subst hn'
              cases h
              exact ⟨k, hk, hskip⟩
            · by_cases hzero : (lastScale + read.1).tmod 256 = 0
              · rw [hzero, readScalingListF_zero] at h
                cases h
                exact ⟨k, hk, hskip⟩
              · obtain ⟨k', -, hskip'⟩ := ih hn' hzero h
                exact ⟨k + k', by omega, by rw [hskip', hskip, BitIter.skip_skip]⟩
          · cases h

theorem skip_inj {k k' : ℕ} (h : bits.skip k = bits.skip k') : k = k' := by
  simpa using congrArg BitIter.pos h

theorem seCode_ne_nil (v : ℤ) : seCode v ≠ [] := by simp [seCode, ueCode]

theorem eq_nil_of_skip
    (h : (.ok ((), bits) : Run String (Unit × BitIter)) =
      .ok ((), bits.skip (scalingBits deltas).length)) : deltas = [] := by
  have hlen : 0 = (scalingBits deltas).length := by
    refine @skip_inj bits _ _ ?_
    rw [BitIter.skip_zero]
    exact (Prod.mk.inj (Except.ok.inj h)).2
  cases deltas with
  | nil => rfl
  | cons d deltas =>
      have := List.length_pos_iff.mpr (seCode_ne_nil d)
      rw [scalingBits_cons, List.length_append] at hlen
      omega

/-- Where a list is read as such and more of it may come, neither the reader nor the list stops. -/
theorem goesOn_of_read {scale : ℤ} (hn : n ≠ 0) (hboth : nextScale = 0 → scale ≠ 0)
    (ht : if scale = 0 then deltas = [] else Transmitted n scale deltas)
    (hread : readScalingListF n lastScale nextScale bits =
      .ok ((), bits.skip (scalingBits deltas).length)) :
    nextScale ≠ 0 ∧ scale ≠ 0 := by
  have hnext : nextScale ≠ 0 := by
    rintro rfl
    rw [readScalingListF_zero] at hread
    obtain rfl : deltas = [] := eq_nil_of_skip hread
    rw [if_neg (hboth rfl)] at ht
    obtain ⟨m, rfl⟩ := Nat.exists_eq_succ_of_ne_zero hn
    exact ht
  refine ⟨hnext, fun hstop => ?_⟩
  rw [if_pos hstop] at ht
  subst ht
  obtain ⟨k, hk, hskip⟩ := exists_skip_of_readScalingListF hn hnext hread
  exact absurd (skip_inj hskip) hk.ne

/-- A list of which more is left than the reader takes, or less, is not read as such. -/
theorem inFull_of_read {scale : ℤ} (hnext : nextScale ≠ 0)
    (hlast : -256 < lastScale ∧ lastScale < 256) (hsum : (lastScale + sum) % 256 = 8)
    (hzero : sum % 256 ≠ 8) (hscale : scale % 256 = (8 + sum) % 256)
    (ht : Transmitted n scale deltas) (hcode : scalingBits deltas <+: bits.remaining)
    (hread : readScalingListF n lastScale nextScale bits =
      .ok ((), bits.skip (scalingBits deltas).length)) :
    deltas.length = n ∧ ∀ k < n, (sum + (deltas.take k).sum) % 256 ≠ 8 := by
  induction deltas generalizing n lastScale nextScale sum scale bits with
  | nil =>
      cases n with
      | zero => exact ⟨rfl, fun k hk => absurd hk (by omega)⟩
      | succ n => exact ht.elim
  | cons d deltas ih =>
      cases n with
      | zero => exact absurd ht (List.cons_ne_nil _ _)
      | succ n =>
          obtain ⟨hd, ht⟩ := ht
          obtain ⟨hbound, hmod⟩ := tmod_bounds (lastScale - d)
          rw [scalingBits_cons] at hcode hread
          have hone : readSignedExpGolomb bits = .ok (-d, bits.skip (seCode d).length) :=
            reads_delta hd bits ((List.prefix_append _ _).trans hcode)
          have hcode' : scalingBits deltas <+: (bits.skip (seCode d).length).remaining := by
            obtain ⟨rest, hrest⟩ := hcode
            rw [List.append_assoc] at hrest
            rw [BitIter.remaining_skip, ← hrest, List.drop_left]
            exact List.prefix_append _ rest
          have hfits : -2 ^ 31 ≤ lastScale - d ∧ lastScale - d < 2 ^ 31 := by omega
          rw [readScalingListF_succ hnext] at hread
          dsimp only at hread
          rw [hone, ok_bind, List.length_append, ← BitIter.skip_skip] at hread
          simp only [← sub_eq_add_neg, if_pos hfits] at hread
          generalize bits.skip (seCode d).length = bits₁ at hread hcode'
          generalize (lastScale - d).tmod 256 = nextScale₁ at hbound hmod hread
          -- no delta is left to be read, or the rest is read as such
          have hrest : deltas.length = n ∧ (n ≠ 0 → (sum + d) % 256 ≠ 8) ∧
              ∀ k < n, (sum + d + (deltas.take k).sum) % 256 ≠ 8 := by
            dsimp only at ht
            by_cases hn : n = 0
            · subst hn
              have hnil : deltas = [] := by
                split at ht
                · exact ht
                · exact ht
              exact ⟨by rw [hnil]; rfl, fun h => absurd rfl h, fun k hk => absurd hk (by omega)⟩
            · -- where the reader stops, the list goes on
              have hboth : nextScale₁ = 0 → (scale + d + 256) % 256 ≠ 0 := by omega
              obtain ⟨hne, hscale₁⟩ : nextScale₁ ≠ 0 ∧ (scale + d + 256) % 256 ≠ 0 :=
                goesOn_of_read hn hboth ht hread
              rw [if_neg hscale₁] at ht
              rw [if_neg hne] at hread
              obtain ⟨hlen, hfull⟩ := ih hne hbound (show (_ + (sum + d)) % 256 = 8 by omega)
                (by omega) (by omega) ht hcode' hread
              exact ⟨hlen, fun _ => by omega, hfull⟩
          obtain ⟨hlen, hone, hfull⟩ := hrest
          refine ⟨by rw [List.length_cons, hlen], fun k hk => ?_⟩
          cases k with
          | zero => simpa using hzero
          | succ k =>
              rw [List.take_succ_cons, List.sum_cons, ← add_assoc]
              exact hfull k (by omega)

theorem Transmitted.bounds {scale : ℤ} (h : Transmitted n scale deltas) :
    ∀ d ∈ deltas, -128 ≤ d ∧ d ≤ 127 := by
  induction deltas generalizing n scale with
  | nil => exact fun d hd => absurd hd List.not_mem_nil
  | cons d deltas ih =>
      cases n with
      | zero => exact absurd h (List.cons_ne_nil _ _)
      | succ n =>
          obtain ⟨hd, hrest⟩ := h
          intro e he
          rcases List.mem_cons.mp he with rfl | he
          · exact hd
          · dsimp only at hrest
            split at hrest
            · rw [hrest] at he
              exact absurd he List.not_mem_nil
            · exact ih hrest e he

/-- A list in full is read as such. -/
theorem reads_scalingList {size : ℕ} (ht : Transmitted size 8 deltas) (h : InFull size deltas) :
    Reads (readScalingList size) (scalingBits deltas) () := by
  obtain ⟨rfl, hfull⟩ := h
  have hread := @reads_scalingListF 8 8 0 deltas (by omega) (by omega) (by omega) ht.bounds
    fun k hk => by simpa using hfull k hk
  exact hread

/-- **The scaling lists that are read as such.** -/
theorem readScalingList_iff {size : ℕ} (ht : Transmitted size 8 deltas)
    (hcode : scalingBits deltas <+: bits.remaining) :
    readScalingList size bits = .ok ((), bits.skip (scalingBits deltas).length) ↔
      InFull size deltas := by
  refine ⟨fun hread => ?_, fun h => reads_scalingList ht h bits hcode⟩
  have hfull := inFull_of_read (show (8 : ℤ) ≠ 0 by omega) (by omega)
    (show ((8 : ℤ) + 0) % 256 = 8 by omega) (by omega) (by omega) ht hcode hread
  simpa [InFull] using hfull

end Scaling

/-! ### The parts of a parameter set -/

/-- What the parser needs of the scaling lists: eight of them, in full. -/
def HighSyntax.ScalingInFull (h : HighSyntax) : Prop :=
  ∀ lists ∈ h.scalingMatrix, h.chromaFormatIdc ≠ 3 ∧
    List.Forall₂ (fun size list => ∀ deltas ∈ list, InFull size deltas) (scalingSizes 8) lists

theorem reads_scalingMatrix {h : HighSyntax} (hfull : h.ScalingInFull) :
    Reads (flagged (forEach (fun size => flagged (readScalingList size)) (scalingSizes 8)))
      (flagBits h.scalingMatrix fun lists => lists.flatMap fun list => flagBits list scalingBits)
      (h.scalingMatrix.map fun _ => ()) := by
  refine reads_flagged fun lists hlists => Reads.forEach ?_
  obtain ⟨hchroma, hfull⟩ := hfull lists hlists
  have ht := h.transmitted lists hlists
  rw [if_neg hchroma] at ht
  refine List.Forall₂.mp (fun size list ht hfull => ?_) ht hfull
  exact ⟨_, reads_flagged fun deltas hdeltas =>
    reads_scalingList (ht deltas hdeltas) (hfull deltas hdeltas)⟩

theorem reads_readHighProfile {h : HighSyntax} (hfull : h.ScalingInFull) :
    Reads readHighProfile h.bits h.chromaFormatIdc.val := by
  have hchroma : h.chromaFormatIdc.val < 2 ^ 32 - 1 := h.chromaFormatIdc.isLt.trans (by omega)
  refine (reads_readExpGolomb hchroma).bind ?_
  refine (Reads.optionally h.separate fun b _ => reads_readBit b).bind ?_
  refine (reads_readExpGolomb h.bitDepthLumaMinus8.property).bind ?_
  refine (reads_readExpGolomb h.bitDepthChromaMinus8.property).bind ?_
  refine (reads_readBit h.qpprimeYZeroTransformBypassFlag).bind ?_
  exact (reads_scalingMatrix hfull).map fun _ => rfl

theorem reads_readPicOrderCnt (p : PicOrderCnt) : Reads readPicOrderCnt p.bits () := by
  cases p with
  | lsb log2MaxPicOrderCntLsbMinus4 =>
      refine (reads_readExpGolomb (by omega)).bind ?_
      exact (reads_readExpGolomb log2MaxPicOrderCntLsbMinus4.property).map fun _ => rfl
  | cycle deltaPicOrderAlwaysZeroFlag offsetForNonRefPic offsetForTopToBottomField
      offsetForRefFrame =>
      refine (reads_readExpGolomb (by omega)).bind ?_
      refine (reads_readBit deltaPicOrderAlwaysZeroFlag).bind ?_
      refine (reads_readSignedExpGolomb offsetForNonRefPic.property).bind ?_
      refine (reads_readSignedExpGolomb offsetForTopToBottomField.property).bind ?_
      refine (reads_readExpGolomb offsetForRefFrame.property).bind ?_
      exact Reads.times fun v _ => ⟨_, reads_readSignedExpGolomb v.property⟩
  | output picOrderCntType =>
      have htype := picOrderCntType.property
      refine (reads_readExpGolomb picOrderCntType.val.property).map fun bits => ?_
      dsimp only
      rw [if_neg (by omega), if_neg (by omega)]

theorem reads_readFrameCropping (c : Cropping) : Reads readFrameCropping c.bits c.params := by
  refine (reads_readExpGolomb c.left.property).bind ?_
  refine (reads_readExpGolomb c.right.property).bind ?_
  refine (reads_readExpGolomb c.top.property).bind ?_
  exact (reads_readExpGolomb c.bottom.property).map fun _ => rfl

/-- What the parser needs of a parameter set. -/
def SpsSyntax.ScalingInFull (s : SpsSyntax) : Prop := ∀ h ∈ s.high, h.ScalingInFull

/-- **The bits of a parameter set are read as what is encoded.** -/
theorem reads_readSps {s : SpsSyntax} (hfull : s.ScalingInFull) :
    Reads readSps s.bits (s.params, s.mbAdaptiveFrameFieldFlag.isNone) := by
  refine (reads_byte s.profileIdc).bind ?_
  refine (reads_byte s.constraintFlags).bind ?_
  refine (reads_byte s.levelIdc).bind ?_
  refine (reads_readExpGolomb s.seqParameterSetId.property).bind ?_
  dsimp only
  rw [UInt8.ofNat_toNat]
  refine (Reads.optionally s.profile fun h hh => reads_readHighProfile (hfull h hh)).bind ?_
  dsimp only
  refine (reads_readExpGolomb s.log2MaxFrameNumMinus4.property).bind ?_
  refine (reads_readPicOrderCnt s.picOrderCnt).bind ?_
  refine (reads_readExpGolomb s.maxNumRefFrames.property).bind ?_
  refine (reads_readBit s.gapsInFrameNumValueAllowedFlag).bind ?_
  refine (reads_readExpGolomb s.picWidthInMbsMinus1.property).bind ?_
  dsimp only
  refine (reads_readExpGolomb s.picHeightInMapUnitsMinus1.property).bind ?_
  dsimp only
  refine (reads_readBit s.mbAdaptiveFrameFieldFlag.isNone).bind ?_
  dsimp only
  refine (Reads.optionally (by simp) fun b _ => reads_readBit b).bind ?_
  refine (reads_readBit s.direct8x8InferenceFlag).bind ?_
  refine (reads_flagged fun c _ => reads_readFrameCropping c).map fun bits => ?_
  simp only [UInt8.ofNat_toNat, Option.isSome_map]
  rfl

/-! ### Which parameter sets are read -/

/-- The header says what the NAL unit is. -/
theorem parseNalHeader_nal (u : SpsUnit) :
    parseNalHeader u.nal = .ok (⟨0, UInt8.ofNat u.nalRefIdc, .sps⟩, escape u.rbsp) := by
  have hbits : ∀ k : Fin 4, (UInt8.ofNat (32 * k + 7) >>> 7) &&& 0x01 = 0 ∧
      (UInt8.ofNat (32 * k + 7) >>> 5) &&& 0x03 = UInt8.ofNat k ∧
      NalUnitType.tryFrom (UInt8.ofNat (32 * k + 7) &&& 0x1F) = .ok .sps := by decide
  obtain ⟨hforbidden, hrefIdc, htype⟩ := hbits u.nalRefIdc
  rw [SpsUnit.nal, parseNalHeader, hforbidden, hrefIdc, htype, if_neg (by simp)]
  rfl

/-- **Which parameter sets are read**: those whose bits are still there behind the emulation
prevention, and whose scaling lists are eight, and in full. -/
theorem parseSps_nal (u : SpsUnit) (hplain : u.sps.bits <+: stream (escape u.rbsp))
    (hfull : u.sps.ScalingInFull) : parseSps u.nal = .ok u.sps.params := by
  have hread := reads_readSps hfull (BitIter.new (escape u.rbsp)) hplain
  rw [parseSps, parseSpsFields, parseNalHeader_nal u, returned_ok, ok_bind]
  dsimp only
  rw [if_neg (by simp), hread]
  rfl

/-- A parameter set of the baseline profile: 352 by 288 samples, cropped. -/
def plainSps : SpsSyntax where
  profileIdc := 66
  constraintFlags := 0
  levelIdc := 30
  seqParameterSetId := ⟨0, by decide⟩
  high := none
  log2MaxFrameNumMinus4 := ⟨0, by decide⟩
  picOrderCnt := .lsb ⟨0, by decide⟩
  maxNumRefFrames := ⟨1, by decide⟩
  gapsInFrameNumValueAllowedFlag := false
  picWidthInMbsMinus1 := ⟨21, by decide⟩
  picHeightInMapUnitsMinus1 := ⟨17, by decide⟩
  mbAdaptiveFrameFieldFlag := none
  direct8x8InferenceFlag := true
  frameCropping := some ⟨⟨0, by decide⟩, ⟨1, by decide⟩, ⟨0, by decide⟩, ⟨2, by decide⟩⟩

/-- The parameters of a high profile, without scaling lists. -/
def plainHigh : HighSyntax where
  chromaFormatIdc := 1
  separateColourPlaneFlag := none
  bitDepthLumaMinus8 := ⟨0, by decide⟩
  bitDepthChromaMinus8 := ⟨0, by decide⟩
  qpprimeYZeroTransformBypassFlag := false
  scalingMatrix := none

/-- A parameter set with one scaling list, from 17 to 32. -/
def scaledSps : SpsSyntax :=
  { plainSps with
    profileIdc := 100
    high := some { plainHigh with
      scalingMatrix := some (some (9 :: List.replicate 15 1) :: List.replicate 7 none)
      transmitted := by decide }
    profile := rfl }

/-- A scaling list of which no sum is 8 before its end. -/
theorem parseSps_nal_scaled :
    parseSps [0x67, 0x64, 0x00, 0x1E, 0xAD, 0x84, 0x92, 0x49, 0x24, 0x92, 0x49, 0x24, 0x03, 0xA0,
        0x58, 0x25, 0xEA, 0xD0] =
      .ok { profileIdc := 100, constraintFlags := [0, 0, 0], levelIdc := 30, seqParameterSetId := 0,
            chromaFormatIdc := 1, picWidthInMbsMinus1 := 21, picHeightInMapUnitsMinus1 := 17,
            frameCroppingFlag := true, frameCropping := some ⟨0, 1, 0, 2⟩ } := by
  have hread := parseSps_nal ⟨scaledSps, 3, [0x64, 0x00, 0x1E, 0xAD, 0x84, 0x92, 0x49, 0x24, 0x92,
    0x49, 0x24, 0x03, 0xA0, 0x58, 0x25, 0xEA, 0xD0], by decide⟩ (by decide)
  refine hread ?_
  rintro h ⟨rfl⟩ lists ⟨rfl⟩
  decide

/-- A parameter set with a flat scaling list: its first sum is 8. -/
def flatUnit : SpsUnit where
  sps := { plainSps with
    profileIdc := 100
    high := some { plainHigh with
      scalingMatrix := some (some (8 :: List.replicate 15 0) :: List.replicate 7 none)
      transmitted := by decide }
    profile := rfl }
  nalRefIdc := 3
  rbsp := [0x64, 0x00, 0x1E, 0xAD, 0x84, 0x3F, 0xFF, 0x80, 0xE8, 0x16, 0x09, 0x7A, 0xB4]

/-- A parameter set for 4:4:4, whose twelve scaling lists are absent. -/
def absentSps : SpsSyntax :=
  { plainSps with
    profileIdc := 244
    high := some { plainHigh with
      chromaFormatIdc := 3
      separateColourPlaneFlag := some false
      scalingMatrix := some (List.replicate 12 none)
      separate := by decide
      transmitted := by decide }
    profile := rfl }

@[inherit_doc absentSps] def absentUnit : SpsUnit where
  sps := absentSps
  nalRefIdc := 3
  rbsp := [0xF4, 0x00, 0x1E, 0x91, 0xA0, 0x01, 0xD0, 0x2C, 0x12, 0xF5, 0x68]

/-- A parameter set with a number whose code has two bytes of zeros. -/
def escapedUnit : SpsUnit where
  sps := { plainSps with
    picOrderCnt := .cycle false ⟨2 ^ 23, by decide⟩ ⟨0, by decide⟩ ⟨[], by decide⟩ }
  nalRefIdc := 3
  rbsp := [0x42, 0x00, 0x1E, 0xD0, 0x00, 0x00, 0x02, 0x00, 0x00, 0x01, 0xA0, 0x58, 0x25, 0xEA, 0xD0]

/-- **Three parameter sets that are not read as what they encode.** -/
theorem parseSps_misread :
    parseSps flatUnit.nal ≠ .ok flatUnit.sps.params ∧
      parseSps absentUnit.nal ≠ .ok absentUnit.sps.params ∧
      parseSps escapedUnit.nal ≠ .ok escapedUnit.sps.params := by
  decide

/-- What is read at the wrong place may be right by accident: here the bits of the lists that are not
read are taken for a larger number, and the sizes are those that are encoded. -/
example : ∃ u : SpsUnit, ¬ u.sps.ScalingInFull ∧ parseSps u.nal = .ok u.sps.params := by
  refine ⟨⟨{ absentSps with
    log2MaxFrameNumMinus4 := ⟨4, by decide⟩
    picOrderCnt := .lsb ⟨9, by decide⟩
    maxNumRefFrames := ⟨15, by decide⟩
    picWidthInMbsMinus1 := ⟨3, by decide⟩
    picHeightInMapUnitsMinus1 := ⟨3, by decide⟩
    mbAdaptiveFrameFieldFlag := some true
    frameCropping := none }, 3,
    [0xF4, 0x00, 0x1E, 0x91, 0xA0, 0x00, 0x58, 0xA0, 0x80, 0x84, 0x64], by decide⟩, ?_, by decide⟩
  exact fun hfull => (hfull _ rfl _ rfl).1 rfl

end H264

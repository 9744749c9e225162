/-
**Companded voice.**

Voice is sent in codes of eight bits (`crates/protocols/src/audio_codec.rs`, and the talkback of
`crates/web/src/gb28181_talkback.rs`, which encodes the microphone and decodes the platform).  A code tells a
sample by its leading bits, so that a loud sample is told as well as a quiet one, in proportion.

Main definitions:

* `Audio.mulawToPcm`, `Audio.alawToPcm` — the sample of a code;
* `Audio.AudioCodec` — the two laws;
* `Audio.encodeG711`, `Audio.decode` — the talkback.

Main results:

* `Audio.mulaw_value`, `Audio.alaw_value` — **the sample of a code is the middle of a step**;
* `Audio.companded_near` — **how far a sample is from that of its code**;
* `Audio.companded_mono` — a louder sample has no quieter code;
* `Audio.companded_again` — **what was decoded is encoded without further loss**.
-/

import MibeeEye.AudioPacketizer
import MibeeEye.VaryingSteps

set_option relaxedAutoImplicit false
set_option autoImplicit false

namespace Audio

open Checked Steps

/-! ### The samples of codes -/

/-- `mulaw_to_pcm` -/
def mulawToPcm (encoded : UInt8) : Int16 :=
  let u := (~~~encoded).toNat
  let segment := (u >>> 4) &&& 0x07
  let mantissa := u &&& 0x0F
  let mag : ℤ := (((mantissa <<< 3 : ℕ) : ℤ) + bias) * 2 ^ segment - bias
  Int16.ofInt (if u &&& 0x80 ≠ 0 then -mag else mag)

/-- `alaw_to_pcm` -/
def alawToPcm (encoded : UInt8) : Int16 :=
  let a := (encoded ^^^ 0x55).toNat
  let segment := (a >>> 4) &&& 0x07
  let step := a &&& 0x0F
  let t := step <<< 4
  let t : ℕ := if segment = 0 then t + 8 else (t + 0x108) <<< (segment - 1)
  Int16.ofInt (if a &&& 0x80 ≠ 0 then t else -t)

/-- The code of a sign, a segment and the bits in it, of the μ-law. -/
def mulawWord (negative : Bool) (segment mantissa : ℕ) : UInt8 :=
  ~~~((if negative then (0x80 : UInt8) else 0) ||| (UInt8.ofNat segment <<< 4) ||| UInt8.ofNat mantissa)

/-- The same of the A-law. -/
def alawWord (negative : Bool) (segment step : ℕ) : UInt8 :=
  ((UInt8.ofNat segment <<< 4) ||| UInt8.ofNat step) ^^^ if negative then (0x55 : UInt8) else 0xD5

/-- A number with a sign. -/
def signedBy (negative : Bool) (n : ℤ) : ℤ := if negative then -n else n

theorem mulawToPcm_word (negative : Bool) (segment : Fin 8) (mantissa : Fin 16) :
    (mulawToPcm (mulawWord negative segment mantissa)).toInt =
      signedBy negative ((8 * mantissa + 132) * 2 ^ (segment : ℕ) - 132) := by
  revert negative segment mantissa
  decide

theorem alawToPcm_word (negative : Bool) (segment : Fin 8) (step : Fin 16) :
    (alawToPcm (alawWord negative segment step)).toInt =
      signedBy negative
        (if (segment : ℕ) = 0 then 16 * step + 8 else (16 * step + 264) * 2 ^ ((segment : ℕ) - 1)) := by
  revert negative segment step
  decide

/-! ### The codes of samples -/

variable {n : ℕ}

/-- Where the segment's threshold lies. -/
theorem segmentOf_lead (h₁ : 128 ≤ n) (h₂ : n < 32768) : segmentOf 0x0100 n = Nat.log 2 n - 7 := by
  have hbounds : 2 ^ (segmentOf 0x0100 n + 7) ≤ n ∧ n < 2 ^ (segmentOf 0x0100 n + 7 + 1) := by
    rw [segmentOf]
    split_ifs <;> norm_num <;> omega
  rw [Nat.log_eq_of_pow_le_of_lt_pow hbounds.1 hbounds.2, Nat.add_sub_cancel]

/-- The segment of a number is where its leading bit is. -/
theorem segmentOf_eq (h : n < 32768) : segmentOf 0x0100 n = Nat.log 2 n - 7 := by
  rcases Nat.lt_or_ge n 128 with hn | hn
  · have hlog : Nat.log 2 n < 7 ∨ n = 0 := by
      by_cases h₀ : n = 0
      · exact .inr h₀
      · exact .inl (Nat.log_lt_of_lt_pow h₀ hn)
    rw [segmentOf]
    rcases hlog with hlog | rfl
    · split_ifs <;> omega
    · simp
  · exact segmentOf_lead hn h

/-- The A-law finds the segment of a sample without its last three bits. -/
theorem segmentOf_div (n : ℕ) : segmentOf 0x0020 ((n / 8 : ℕ) : ℤ) = segmentOf 0x0100 n := by
  have hiff : ∀ c : ℤ, c * 8 ≤ n ↔ c ≤ (n / 8 : ℕ) := by
    intro c
    omega
  rw [segmentOf, segmentOf]
  simp only [← hiff]
  norm_num

/-- The magnitude of a sample that is encoded with the μ-law, clipped and with its bias. -/
def mulawLevel (sample : Int16) : ℕ := min sample.toInt.natAbs 32635 + 132

/-- The magnitude of a sample that is encoded with the A-law. -/
def alawLevel (sample : Int16) : ℕ := if 0 ≤ sample.toInt then sample.toInt.toNat else (-sample.toInt - 1).toNat

/-- The middle of a segment's step, by the bits in it. -/
theorem middle_eq (h₁ : 128 ≤ n) (h₂ : n < 32768) :
    Nat.log 2 n - 7 < 8 ∧
      middle 4 n = (8 * (n / 2 ^ (Nat.log 2 n - 7 + 3) % 16) + 132) * 2 ^ (Nat.log 2 n - 7) := by
  have hlog : 7 ≤ Nat.log 2 n := Nat.le_log_of_pow_le Nat.one_lt_two h₁
  have hlog' : Nat.log 2 n < 15 := Nat.log_lt_of_lt_pow (by omega) h₂
  obtain ⟨hlead, hlead'⟩ := lead_bounds (p := 4) (n := n) (by omega) (by omega)
  have hwidth : width 4 n = 2 ^ (Nat.log 2 n - 7) * 8 := by
    rw [width, show Nat.log 2 n - 4 = Nat.log 2 n - 7 + 3 by omega, Nat.pow_add]
  rw [hwidth] at hlead hlead'
  rw [middle, floor, hwidth, Nat.pow_add, show (2 ^ 3 : ℕ) = 8 from rfl]
  generalize 2 ^ (Nat.log 2 n - 7) = q at hlead hlead' ⊢
  have hbits : n / (q * 8) = n / (q * 8) % 16 + 16 := by omega
  refine ⟨by omega, ?_⟩
  rw [hbits, Nat.add_mod_right, Nat.mod_mod, show q * 8 / 2 = q * 4 by omega]
  ring

/-- The code of a sample in the μ-law. -/
def mulawCode (sample : Int16) : UInt8 :=
  let n := mulawLevel sample
  mulawWord (decide (sample.toInt < 0)) (Nat.log 2 n - 7) (n / 2 ^ (Nat.log 2 n - 7 + 3) % 16)

theorem mulawLevel_bounds (sample : Int16) : 132 ≤ mulawLevel sample ∧ mulawLevel sample < 32768 := by
  rw [mulawLevel]
  omega

/-- The encoder finds the code of the sample's sign and leading bits. -/
theorem pcmToMulaw_eq (sample : Int16) : pcmToMulaw sample = .ok (mulawCode sample) := by
  obtain ⟨hle, hlt⟩ := mulawLevel_bounds sample
  have hlevel : min (sample.toInt.natAbs : ℤ) clip + bias = (mulawLevel sample : ℤ) := by
    simp only [clip, bias, mulawLevel]
    omega
  have hsign : sample < 0 ↔ sample.toInt < 0 := Int16.lt_iff_toInt_lt
  have hmantissa : ∀ k : ℕ, ((mulawLevel sample : ℤ) >>> k % 16).toNat = mulawLevel sample / 2 ^ k % 16 := by
    intro k
    rw [Int.shiftRight_eq_div_pow]
    norm_cast
  rw [pcmToMulaw, hlevel, signed_eq (by omega), ok_bind, segmentOf_eq hlt]
  simp only [hmantissa, hsign, mulawCode, mulawWord, decide_eq_true_eq]
  rfl

/-- **The sample of a μ-law code is the middle of a step.** -/
theorem mulaw_value (sample : Int16) :
    (mulawToPcm (mulawCode sample)).toInt =
      signedBy (decide (sample.toInt < 0)) ((middle 4 (mulawLevel sample) : ℕ) - 132) := by
  obtain ⟨hle, hlt⟩ := mulawLevel_bounds sample
  obtain ⟨hsegment, hmiddle⟩ := middle_eq (n := mulawLevel sample) (by omega) hlt
  have hword := mulawToPcm_word (decide (sample.toInt < 0)) ⟨_, hsegment⟩
    ⟨mulawLevel sample / 2 ^ (Nat.log 2 (mulawLevel sample) - 7 + 3) % 16, Nat.mod_lt _ (by decide)⟩
  rw [mulawCode, hword, hmiddle]
  push_cast
  rfl

/-- The middle of an A-law step: below the second segment all steps are of one width. -/
def alawMiddle (n : ℕ) : ℕ := if n < 256 then n / 16 * 16 + 8 else middle 4 n

/-- The bits of a number in its A-law segment. -/
def alawStep (n : ℕ) : ℕ := if n < 256 then n / 16 else n / 2 ^ (Nat.log 2 n - 7 + 3) % 16

/-- The code of a sample in the A-law. -/
def alawCode (sample : Int16) : UInt8 :=
  alawWord (decide (sample.toInt < 0)) (Nat.log 2 (alawLevel sample) - 7) (alawStep (alawLevel sample))

theorem alawLevel_lt (sample : Int16) : alawLevel sample < 32768 := by
  have hbounds := toInt_bounds sample
  rw [alawLevel]
  split <;> omega

/-- The encoder of the A-law drops three bits of a sample, and complements a negative one. -/
theorem alaw_fold (sample : Int16) :
    (0 ≤ sample.toInt >>> (3 : ℕ) ↔ ¬ sample.toInt < 0) ∧
      (if 0 ≤ sample.toInt >>> (3 : ℕ) then sample.toInt >>> (3 : ℕ) else -(sample.toInt >>> (3 : ℕ)) - 1) =
        ((alawLevel sample / 8 : ℕ) : ℤ) := by
  have hshift : sample.toInt >>> (3 : ℕ) = sample.toInt / 8 := by
    rw [Int.shiftRight_eq_div_pow]
    norm_num
  rw [hshift, alawLevel]
  refine ⟨by omega, ?_⟩
  split_ifs <;> omega

theorem alaw_segment (h : n < 32768) : Nat.log 2 n - 7 < 8 := by
  have hlog := Nat.log_lt_of_lt_pow' (b := 2) (x := 15) (y := n) (by decide) h
  omega

/-- The first two segments of the A-law have steps of one width. -/
theorem alawStep_eq (n : ℕ) :
    (if Nat.log 2 n - 7 < 2 then ((n / 8 : ℕ) : ℤ) >>> (1 : ℕ) % 16
      else ((n / 8 : ℕ) : ℤ) >>> (Nat.log 2 n - 7) % 16) = (alawStep n : ℤ) := by
  have hshift : ∀ k : ℕ, ((n / 8 : ℕ) : ℤ) >>> k % 16 = ((n / 2 ^ (k + 3) % 16 : ℕ) : ℤ) := by
    intro k
    rw [Int.shiftRight_eq_div_pow, Nat.pow_add, Nat.mul_comm, ← Nat.div_div_eq_div_mul]
    norm_cast
  rw [hshift, hshift, alawStep]
  rcases Nat.lt_or_ge n 256 with hn | hn
  · have hlog := Nat.log_lt_of_lt_pow' (b := 2) (x := 8) (y := n) (by decide) hn
    rw [if_pos (by omega), if_pos hn]
    omega
  · have hlog : 8 ≤ Nat.log 2 n := Nat.le_log_of_pow_le Nat.one_lt_two hn
    rw [if_neg (by omega : ¬ n < 256)]
    split_ifs with hfirst
    · rw [show Nat.log 2 n - 7 = 1 by omega]
    · rfl

/-- The encoder finds the code of the sample's sign and leading bits. -/
theorem pcmToAlaw_eq (sample : Int16) : pcmToAlaw sample = .ok (alawCode sample) := by
  have hlt := alawLevel_lt sample
  have hsegment := alaw_segment hlt
  obtain ⟨hsign, hmag⟩ := alaw_fold sample
  have hbounds := toInt_bounds sample
  have hfold : (if 0 ≤ sample.toInt >>> (3 : ℕ) then (.ok (sample.toInt >>> (3 : ℕ)) : Run String ℤ)
      else signed 31 (-(sample.toInt >>> (3 : ℕ))) >>= fun v => signed 31 (v - 1)) =
        .ok ((alawLevel sample / 8 : ℕ) : ℤ) := by
    split_ifs at hmag ⊢ with hpos
    · rw [hmag]
    · rw [signed_eq (by omega), ok_bind, hmag, signed_eq (by omega)]
  have hmask : (if 0 ≤ sample.toInt >>> (3 : ℕ) then (0xD5 : UInt8) else 0x55) =
      if decide (sample.toInt < 0) then 0x55 else 0xD5 := by
    simp only [hsign, ite_not, decide_eq_true_eq]
  rw [pcmToAlaw]
  dsimp only
  rw [hfold, ok_bind, segmentOf_div, segmentOf_eq hlt, if_neg (by omega), alawStep_eq, Int.toNat_natCast,
    hmask]
  rfl

/-- The middle of an A-law step, by the bits in it. -/
theorem alawMiddle_eq (h : n < 32768) :
    alawStep n < 16 ∧
      alawMiddle n =
        if Nat.log 2 n - 7 = 0 then 16 * alawStep n + 8
        else (16 * alawStep n + 264) * 2 ^ (Nat.log 2 n - 7 - 1) := by
  rw [alawMiddle, alawStep]
  rcases Nat.lt_or_ge n 256 with hn | hn
  · have hlog := Nat.log_lt_of_lt_pow' (b := 2) (x := 8) (y := n) (by decide) hn
    rw [if_pos hn, if_pos hn, if_pos (by omega)]
    omega
  · have hlog : 8 ≤ Nat.log 2 n := Nat.le_log_of_pow_le Nat.one_lt_two hn
    rw [if_neg (by omega), if_neg (by omega), if_neg (by omega), (middle_eq (by omega) h).2]
    refine ⟨Nat.mod_lt _ (by decide), ?_⟩
    obtain ⟨k, hk⟩ : ∃ k, Nat.log 2 n - 7 = k + 1 := ⟨Nat.log 2 n - 8, by omega⟩
    rw [hk, Nat.add_sub_cancel, Nat.pow_succ]
    ring

/-- **The sample of an A-law code is the middle of a step**; below zero the steps are those of the
complement. -/
theorem alaw_value (sample : Int16) :
    (alawToPcm (alawCode sample)).toInt =
      signedBy (decide (sample.toInt < 0)) (alawMiddle (alawLevel sample) : ℕ) := by
  have hlt := alawLevel_lt sample
  obtain ⟨hstep, hmiddle⟩ := alawMiddle_eq hlt
  have hword := alawToPcm_word (decide (sample.toInt < 0)) ⟨_, alaw_segment hlt⟩ ⟨_, hstep⟩
  rw [alawCode, hword, hmiddle]
  push_cast
  rfl

/-! ### The talkback -/

/-- `AudioCodec`. -/
inductive AudioCodec
  | pcma
  | pcmu
  deriving DecidableEq, Repr

/-- `TalkbackDecoder::decode`. -/
def decode (payload : List UInt8) : AudioCodec → List Int16
  | .pcma => payload.map alawToPcm
  | .pcmu => payload.map mulawToPcm

/-- `encode_g711`. -/
def encodeG711 (pcm : List Int16) : AudioCodec → Run String (List UInt8)
  | .pcma => pcm.mapM pcmToAlaw
  | .pcmu => pcm.mapM pcmToMulaw

/-- The code of a sample, by the law. -/
def codeOf : AudioCodec → Int16 → UInt8
  | .pcma => alawCode
  | .pcmu => mulawCode

/-- The sample of a code, by the law. -/
def sampleOf : AudioCodec → UInt8 → Int16
  | .pcma => alawToPcm
  | .pcmu => mulawToPcm

theorem encodeG711_eq (pcm : List Int16) (law : AudioCodec) :
    encodeG711 pcm law = .ok (pcm.map (codeOf law)) := by
  cases law with
  | pcma => exact mapM_ok pcmToAlaw_eq pcm
  | pcmu => exact mapM_ok pcmToMulaw_eq pcm

theorem decode_eq (payload : List UInt8) (law : AudioCodec) : decode payload law = payload.map (sampleOf law) := by
  cases law <;> rfl

/-- What a law can tell of a sample: the μ-law clips the loudest. -/
def clamped (law : AudioCodec) (sample : ℤ) : ℤ :=
  match law with
  | .pcma => sample
  | .pcmu => max (-clip) (min sample clip)

/-- The part of a sample that its code may miss it by, in 32nds. -/
def leeway (law : AudioCodec) (sample : ℤ) : ℤ :=
  match law with
  | .pcma => max |sample| 256
  | .pcmu => min |sample| clip + bias

theorem mulaw_near (sample : Int16) :
    32 * |(mulawToPcm (mulawCode sample)).toInt - clamped .pcmu sample.toInt| ≤ leeway .pcmu sample.toInt := by
  have hlevel : mulawLevel sample = min sample.toInt.natAbs 32635 + 132 := rfl
  have hlog : 4 < Nat.log 2 (mulawLevel sample) :=
    Nat.lt_of_succ_le (Nat.le_log_of_pow_le Nat.one_lt_two (by omega))
  obtain ⟨hlow, hhigh, hpart⟩ := middle_near (by omega) hlog
  rw [mulaw_value, signedBy]
  simp only [clamped, leeway, clip, bias, Int.abs_eq_natAbs, decide_eq_true_eq]
  split_ifs with hsign <;> omega

/-- A sample by its magnitude in the A-law. -/
theorem alaw_signed (sample : Int16) :
    sample.toInt < 0 ∧ sample.toInt = -((alawLevel sample : ℤ) + 1) ∨
      ¬ sample.toInt < 0 ∧ sample.toInt = (alawLevel sample : ℤ) := by
  rw [alawLevel]
  split_ifs <;> omega

theorem alawMiddle_near (n : ℕ) :
    32 * |((alawMiddle n : ℕ) : ℤ) - n| ≤ max (n : ℤ) 256 ∧
      32 * |((alawMiddle n : ℕ) : ℤ) - (n + 1)| ≤ max ((n : ℤ) + 1) 256 := by
  rw [alawMiddle]
  simp only [Int.abs_eq_natAbs]
  rcases Nat.lt_or_ge n 256 with hn | hn
  · rw [if_pos hn]
    omega
  · have hlog : 4 < Nat.log 2 n := Nat.lt_of_succ_le (Nat.le_log_of_pow_le Nat.one_lt_two (by omega))
    obtain ⟨hlow, hhigh, hpart⟩ := middle_near (by omega) hlog
    rw [if_neg (by omega)]
    omega

theorem alaw_near (sample : Int16) :
    32 * |(alawToPcm (alawCode sample)).toInt - clamped .pcma sample.toInt| ≤ leeway .pcma sample.toInt := by
  obtain ⟨hpos, hneg⟩ := alawMiddle_near (alawLevel sample)
  rw [alaw_value, signedBy, clamped, leeway]
  obtain ⟨hsign, hsample⟩ | ⟨hsign, hsample⟩ := alaw_signed sample
  · rw [if_pos (decide_eq_true hsign), hsample, abs_neg, abs_of_nonneg (by omega : 0 ≤ (alawLevel sample : ℤ) + 1),
      ← neg_add', abs_neg, ← sub_eq_add_neg]
    exact hneg
  · rw [if_neg (by simpa using hsign), hsample, abs_of_nonneg (by omega : 0 ≤ (alawLevel sample : ℤ))]
    exact hpos

/-- A code misses its sample by no more than a 32nd. -/
theorem code_near (law : AudioCodec) (sample : Int16) :
    32 * |(sampleOf law (codeOf law sample)).toInt - clamped law sample.toInt| ≤ leeway law sample.toInt := by
  cases law with
  | pcma => exact alaw_near sample
  | pcmu => exact mulaw_near sample

/-- **How far samples are from those of their codes**: by a 32nd at most, in either law, however loud they
are. -/
theorem companded_near (pcm : List Int16) (law : AudioCodec) :
    ∃ g711, encodeG711 pcm law = .ok g711 ∧
      List.Forall₂ (fun sample heard : Int16 =>
        32 * |heard.toInt - clamped law sample.toInt| ≤ leeway law sample.toInt) pcm (decode g711 law) := by
  refine ⟨pcm.map (codeOf law), encodeG711_eq pcm law, ?_⟩
  rw [decode_eq, List.map_map, List.forall₂_map_right_iff]
  exact List.forall₂_same.2 fun sample _ => code_near law sample

theorem mulaw_mono {a b : Int16} (hle : a.toInt ≤ b.toInt) :
    (mulawToPcm (mulawCode a)).toInt ≤ (mulawToPcm (mulawCode b)).toInt := by
  have hle_middle : ∀ sample, 132 ≤ middle 4 (mulawLevel sample) := by
    intro sample
    obtain ⟨hlow, hhigh⟩ := mulawLevel_bounds sample
    rw [(middle_eq (by omega) hhigh).2]
    exact (Nat.le_add_left 132 _).trans (Nat.le_mul_of_pos_right _ (Nat.two_pow_pos _))
  have hmono : ∀ {c d : Int16}, mulawLevel c ≤ mulawLevel d →
      middle 4 (mulawLevel c) ≤ middle 4 (mulawLevel d) := by
    intro c d hlevel
    have hlow := (mulawLevel_bounds c).1
    exact middle_mono (by omega) (Nat.le_log_of_pow_le Nat.one_lt_two (by omega)) hlevel
  rw [mulaw_value, mulaw_value, signedBy, signedBy]
  simp only [decide_eq_true_eq]
  have ha := hle_middle a
  have hb := hle_middle b
  split_ifs with hnega hnegb hnegb
  · have hlevel := hmono (c := b) (d := a) (by simp only [mulawLevel]; omega)
    omega
  · omega
  · omega
  · have hlevel := hmono (c := a) (d := b) (by simp only [mulawLevel]; omega)
    omega

theorem alawMiddle_mono {m : ℕ} (hle : n ≤ m) : alawMiddle n ≤ alawMiddle m := by
  rw [alawMiddle, alawMiddle]
  rcases Nat.lt_or_ge m 256 with hm | hm
  · rw [if_pos (by omega), if_pos hm]
    omega
  · have hlog : 8 ≤ Nat.log 2 m := Nat.le_log_of_pow_le Nat.one_lt_two hm
    rw [if_neg (by omega : ¬ m < 256)]
    split_ifs with hn
    · have hfloor := (floor_bounds (p := 4) (n := m) (by omega) (by omega)).1
      have hpow := Nat.pow_le_pow_right Nat.two_pos hlog
      rw [middle]
      omega
    · exact middle_mono (by omega) (Nat.le_log_of_pow_le Nat.one_lt_two (by omega)) hle

theorem alaw_mono {a b : Int16} (hle : a.toInt ≤ b.toInt) :
    (alawToPcm (alawCode a)).toInt ≤ (alawToPcm (alawCode b)).toInt := by
  have hmono : ∀ {c d : Int16}, (alawLevel c : ℤ) ≤ alawLevel d →
      (alawMiddle (alawLevel c) : ℤ) ≤ alawMiddle (alawLevel d) := by
    intro c d hlevel
    exact_mod_cast alawMiddle_mono (by exact_mod_cast hlevel)
  rw [alaw_value, alaw_value, signedBy, signedBy]
  simp only [decide_eq_true_eq]
  obtain ⟨hnega, ha⟩ | ⟨hnega, ha⟩ := alaw_signed a
  · rw [if_pos hnega]
    obtain ⟨hnegb, hb⟩ | ⟨hnegb, hb⟩ := alaw_signed b
    · rw [if_pos hnegb]
      exact neg_le_neg (hmono (by omega))
    · rw [if_neg hnegb]
      omega
  · obtain ⟨hnegb, hb⟩ | ⟨hnegb, hb⟩ := alaw_signed b
    · omega
    · rw [if_neg hnega, if_neg hnegb]
      exact hmono (by omega)

/-- **A louder sample has no quieter code**: samples in order are heard in order. -/
theorem companded_mono {quiet loud : List Int16} (law : AudioCodec)
    (h : List.Forall₂ (fun a b : Int16 => a.toInt ≤ b.toInt) quiet loud) :
    ∃ g711 g711', encodeG711 quiet law = .ok g711 ∧ encodeG711 loud law = .ok g711' ∧
      List.Forall₂ (fun a b : Int16 => a.toInt ≤ b.toInt) (decode g711 law) (decode g711' law) := by
  have hmono : ∀ a b : Int16, a.toInt ≤ b.toInt →
      (sampleOf law (codeOf law a)).toInt ≤ (sampleOf law (codeOf law b)).toInt := by
    intro a b hle
    cases law with
    | pcma => exact alaw_mono hle
    | pcmu => exact mulaw_mono hle
  refine ⟨_, _, encodeG711_eq quiet law, encodeG711_eq loud law, ?_⟩
  rw [decode_eq, decode_eq, List.map_map, List.map_map, List.forall₂_map_left_iff, List.forall₂_map_right_iff]
  exact h.imp hmono

theorem companded_rising : ∃ g711 g711', encodeG711 [-900, 3] .pcmu = .ok g711 ∧
    encodeG711 [-899, 2000] .pcmu = .ok g711' ∧
      List.Forall₂ (fun a b : Int16 => a.toInt ≤ b.toInt) (decode g711 .pcmu) (decode g711' .pcmu) :=
  companded_mono .pcmu (.cons (by decide) (.cons (by decide) .nil))

/-- A code and the one its sample is encoded with are of one sample. -/
theorem sampleOf_codeOf (law : AudioCodec) (code : UInt8) :
    sampleOf law (codeOf law (sampleOf law code)) = sampleOf law code := by
  have halaw : ∀ n : Fin 256, (pcmToAlaw (alawToPcm (UInt8.ofNat n))).map alawToPcm =
      .ok (alawToPcm (UInt8.ofNat n)) := by
    decide +kernel
  have hmulaw : ∀ n : Fin 256, (pcmToMulaw (mulawToPcm (UInt8.ofNat n))).map mulawToPcm =
      .ok (mulawToPcm (UInt8.ofNat n)) := by
    decide +kernel
  cases law with
  | pcma =>
      have hcode := halaw ⟨code.toNat, code.toNat_lt⟩
      rw [pcmToAlaw_eq, UInt8.ofNat_toNat] at hcode
      exact Except.ok.inj hcode
  | pcmu =>
      have hcode := hmulaw ⟨code.toNat, code.toNat_lt⟩
      rw [pcmToMulaw_eq, UInt8.ofNat_toNat] at hcode
      exact Except.ok.inj hcode

/-- **What was decoded is encoded without further loss**: any payload that is decoded, encoded and decoded
once more is heard the same. -/
theorem companded_again (payload : List UInt8) (law : AudioCodec) :
    ∃ g711, encodeG711 (decode payload law) law = .ok g711 ∧ decode g711 law = decode payload law := by
  refine ⟨_, encodeG711_eq _ law, ?_⟩
  rw [decode_eq, decode_eq, List.map_map, List.map_map]
  exact List.map_congr_left fun code _ => sampleOf_codeOf law code

end Audio

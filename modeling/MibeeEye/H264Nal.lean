/-
**NAL units in a byte stream.**

H.264 NAL units travel in two framings: Annex B, where each follows a start code `00 00 01` or `00
00 00 01`, and AVCC, where each follows its four-byte length.  The splitters are in
`crates/protocols/src/h264.rs`.  `parse_h264_nal_units` in `crates/streaming/src/output/mod.rs`
guesses the framing from the bytes: a start code anywhere means Annex B, fewer than four bytes are
one NAL unit, and everything else is taken for AVCC.  A NAL unit without its start code, which is
what the encoder delivers, is thus read as a length and data.

Main definitions:

* `H264.findStartCodes`, `H264.splitNalUnits`, `H264.splitNalUnitsAvcc`;
* `H264.parseH264NalUnits` — the guess;
* `H264.NalUnit` — a NAL unit as the encoder delivers it: not empty, and without a start code in
  it;
* `H264.avcc` — NAL units with their lengths.

Main results:

* `H264.length_avcc_splitNalUnitsAvcc` — the AVCC splitter returns no more than it was given;
* `H264.parse_short`, `H264.length_avcc_parse_long` — **what is made of a single NAL unit**: fewer
  than four bytes come back, longer ones never do.
-/

import MibeeEye.ByteOrder

set_option relaxedAutoImplicit false
set_option autoImplicit false

namespace H264

open Wire

/-! ### The splitters -/

/-- The loop of `find_start_codes` from position `i`: the positions of the start codes and of what
follows them.  `fuel` bounds the number of positions looked at. -/
@[grind =] def findStartCodesF (data : List UInt8) : ℕ → ℕ → List (ℕ × ℕ)
  | 0, _ => []
  | fuel + 1, i =>
      if i + 3 < data.length then
        if slice data i (i + 4) = [0x00, 0x00, 0x00, 0x01] then
          (i, i + 4) :: findStartCodesF data fuel (i + 4)
        else if slice data i (i + 3) = [0x00, 0x00, 0x01] then
          (i, i + 3) :: findStartCodesF data fuel (i + 3)
        else findStartCodesF data fuel (i + 1)
      else []

/-- `find_start_codes`. -/
def findStartCodes (data : List UInt8) : List (ℕ × ℕ) := findStartCodesF data data.length 0

/-- The NAL units between the given start codes; the last one ends with the data. -/
def nalsBetween (data : List UInt8) : List (ℕ × ℕ) → List (List UInt8)
  | [] => []
  | (_, dataStart) :: codes =>
      let endPos := match codes with
        | [] => data.length
        | (next, _) :: _ => next
      if dataStart < endPos then slice data dataStart endPos :: nalsBetween data codes
      else nalsBetween data codes

/-- `split_nal_units`: Annex B; data without a start code is one NAL unit. -/
def splitNalUnits (data : List UInt8) : List (List UInt8) :=
  match findStartCodes data with
  | [] => if data = [] then [] else [data]
  | codes => nalsBetween data codes

/-- The loop of `split_nal_units_avcc`. -/
@[grind =] def splitAvccF : ℕ → List UInt8 → List (List UInt8)
  | 0, _ => []
  | fuel + 1, data =>
      if data.length < 4 then []
      else
        let length := ofBe (data.take 4)
        if length = 0 then []
        else if data.length < 4 + length then []
        else slice data 4 (4 + length) :: splitAvccF fuel (data.drop (4 + length))

/-- `split_nal_units_avcc`: four-byte lengths, up to the first that is zero or too large. -/
def splitNalUnitsAvcc (data : List UInt8) : List (List UInt8) := splitAvccF data.length data

/-- Whether three bytes in a row are the start code `00 00 01`. -/
def hasStartCode : List UInt8 → Bool
  | a :: b :: c :: data => (a == 0x00 && b == 0x00 && c == 0x01) || hasStartCode (b :: c :: data)
  | _ => false

/-- **`parse_h264_nal_units`**: the NAL units of a frame in either framing. -/
def parseH264NalUnits (data : List UInt8) : List (List UInt8) :=
  if data.length < 4 then [data]
  else if hasStartCode data then splitNalUnits data
  else splitNalUnitsAvcc data

/-! ### NAL units -/

/-- The NAL unit type, if there is a first byte. -/
def nalType (nal : List UInt8) : Option UInt8 := nal.head?.map (· &&& 0x1F)

/-- An SPS. -/
def isSps (nal : List UInt8) : Bool := nalType nal == some 7

/-- A PPS. -/
def isPps (nal : List UInt8) : Bool := nalType nal == some 8

/-- A slice: of a picture that is not an IDR picture, or of one that is. -/
def isSlice (nal : List UInt8) : Bool := nalType nal == some 1 || nalType nal == some 5

/-- A NAL unit with its start code stripped. -/
structure NalUnit where
  bytes : List UInt8
  ne_nil : bytes ≠ [] := by decide
  noStartCode : hasStartCode bytes = false := by decide

/-- NAL units with their four-byte lengths, as `send_frame` writes them. -/
def avcc (nals : List (List UInt8)) : List UInt8 :=
  nals.flatMap fun nal => beBytes 4 nal.length ++ nal

theorem avcc_cons (nal : List UInt8) (nals : List (List UInt8)) :
    avcc (nal :: nals) = beBytes 4 nal.length ++ nal ++ avcc nals := by
  rw [avcc, List.flatMap_cons]
  rfl

theorem length_avcc_cons (nal : List UInt8) (nals : List (List UInt8)) :
    (avcc (nal :: nals)).length = 4 + nal.length + (avcc nals).length := by
  rw [avcc_cons, List.length_append, List.length_append, length_beBytes]

theorem length_avcc_singleton (nal : List UInt8) : (avcc [nal]).length = 4 + nal.length := by
  rw [length_avcc_cons]
  rfl

/-! ### What is made of a single NAL unit -/

/-- **The AVCC splitter returns no more than it was given.** -/
theorem length_avcc_splitAvccF : ∀ (fuel : ℕ) (data : List UInt8),
    (avcc (splitAvccF fuel data)).length ≤ data.length := by
  intro fuel
  induction fuel with
  | zero =>
      intro data
      exact Nat.zero_le _
  | succ fuel ih =>
      intro data
      rw [splitAvccF]
      split
      · exact Nat.zero_le _
      · dsimp only
        split
        · exact Nat.zero_le _
        · split
          · exact Nat.zero_le _
          · rename_i hfit
            have hrest := ih (data.drop (4 + ofBe (data.take 4)))
            rw [List.length_drop] at hrest
            rw [length_avcc_cons, slice, List.length_take, List.length_drop]
            omega

theorem length_avcc_splitNalUnitsAvcc (data : List UInt8) :
    (avcc (splitNalUnitsAvcc data)).length ≤ data.length :=
  length_avcc_splitAvccF _ data

/-- Fewer than four bytes are one NAL unit. -/
theorem parse_short {data : List UInt8} (h : data.length < 4) : parseH264NalUnits data = [data] := by
  rw [parseH264NalUnits, if_pos h]

/-- **A longer NAL unit is read as AVCC**, and what is made of it has no room for it. -/
theorem length_avcc_parse_long {nal : NalUnit} (h : 4 ≤ nal.bytes.length) :
    (avcc (parseH264NalUnits nal.bytes)).length ≤ nal.bytes.length := by
  rw [parseH264NalUnits, if_neg (by omega), nal.noStartCode]
  exact length_avcc_splitNalUnitsAvcc nal.bytes

end H264

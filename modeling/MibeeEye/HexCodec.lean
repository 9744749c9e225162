/-
**The hexadecimal text of encrypted fields.**

`crates/security/src/encryption.rs`: encrypted fields are stored as text with two digits for each byte.
The text is read in pairs of characters, each by the parser of integers, which knows digits of both
cases and a sign.

Main definitions:

* `HexCodec.hexEncode`, `HexCodec.hexDecode` — the two directions;
* `HexCodec.PairsReadable` — text of which the parser of integers reads each pair of characters.

Main results:

* `HexCodec.hexDecode_eq` — decoding goes through the pairs, and never panics;
* `HexCodec.exists_hexDecode` — what is decoded at all;
* `HexCodec.hexDecode_lawful` — **the round trip, and exactly when decoding accepts nothing but what
  encoding writes**.
-/

import MibeeEye.Numerals
import MibeeEye.Utf8

set_option relaxedAutoImplicit false
set_option autoImplicit false

namespace HexCodec

open Text Wire

/-! ### The two directions -/

/-- `{byte:02x}` -/
def lowerHex (byte : UInt8) : List Char :=
  [Md5.hexDigit (byte.toNat / 16), Md5.hexDigit (byte.toNat % 16)]

/-- **`hex_encode`** -/
def hexEncode (data : List UInt8) : String := String.ofList (data.flatMap lowerHex)

/-- The bytes of the pairs of characters at the offsets `is`; the first pair that is no number is an
error. -/
@[grind =] def decodeAt (hex : List Char) : List ℕ → Option (Except String (List UInt8))
  | [] => some (.ok [])
  | i :: is =>
    (strSlice hex i (i + 2)).bind fun pair =>
      match parseUnsigned 16 256 pair with
      | none => some (.error s!"invalid hex characters at position {i}")
      | some n => (decodeAt hex is).map fun rest => rest.map (UInt8.ofNat n :: ·)

/-- `str::is_ascii` -/
def isAscii (s : List Char) : Bool := s.all fun c => decide (c.toNat < 128)

/-- **`hex_decode`**: the bytes or the text of an error, `none` for a panic. -/
def hexDecode (hex : String) : Option (Except String (List UInt8)) :=
  let len := utf8Len hex.toList
  if len % 2 ≠ 0 then some (.error s!"hex string has odd length: {len}")
  else if ¬ isAscii hex.toList then
    some (.error "hex string contains non-ASCII characters")
  else decodeAt hex.toList (List.range' 0 ((len + 1) / 2) 2)

theorem isAscii_iff (s : List Char) : isAscii s = true ↔ ∀ c ∈ s, c.toNat < 128 := by
  simp [isAscii]

/-! ### Pairs of characters -/

/-- A digit of either case. -/
def isHexDigit (c : Char) : Bool := (digitVal 16 c).isSome

/-- A digit as it is written. -/
def isLowerHex (c : Char) : Bool :=
  decide (0x30 ≤ c.toNat ∧ c.toNat ≤ 0x39 ∨ 0x61 ≤ c.toNat ∧ c.toNat ≤ 0x66)

/-- A pair that the parser of integers reads: two digits, or a sign and a digit. -/
def pairReadable (a b : Char) : Bool := (isHexDigit a || a == '+') && isHexDigit b

/-- Text of which the parser of integers reads each pair of characters. -/
@[grind =] def PairsReadable : List Char → Prop
  | [] => True
  | [_] => False
  | a :: b :: s => pairReadable a b = true ∧ PairsReadable s

/-- The bytes of the pairs of characters, of which the first begins at `i`. -/
@[grind =] def decodePairs (i : ℕ) : List Char → Except String (List UInt8)
  | a :: b :: s =>
    match parseUnsigned 16 256 [a, b] with
    | none => .error s!"invalid hex characters at position {i}"
    | some n => (decodePairs (i + 2) s).map (UInt8.ofNat n :: ·)
  | _ => .ok []

/-! ### One pair -/

theorem digitVal_lt {c : Char} {d : ℕ} (h : digitVal 16 c = some d) : d < 16 := by
  unfold digitVal at h
  extract_lets n e at h
  by_cases he : e < 16
  · rw [if_pos he] at h
    exact Option.some.inj h ▸ he
  · rw [if_neg he] at h
    cases h

/-- A digit as it is written is the digit of its value. -/
theorem hexDigit_of_lower {c : Char} (hc : isLowerHex c = true) :
    ∃ d, digitVal 16 c = some d ∧ Md5.hexDigit d = c := by
  have hself : Char.ofNat c.toNat = c := Char.ofNat_toNat c
  rcases of_decide_eq_true hc with ⟨hlo, hhi⟩ | ⟨hlo, hhi⟩
  · refine ⟨c.toNat - 0x30, ?_, ?_⟩
    · simp only [digitVal, if_pos (And.intro hlo hhi)]
      exact if_pos (by omega)
    · rw [Md5.hexDigit, if_pos (by omega), show 0x30 + (c.toNat - 0x30) = c.toNat by omega, hself]
  · refine ⟨c.toNat - 0x57, ?_, ?_⟩
    · have hdec : ¬(0x30 ≤ c.toNat ∧ c.toNat ≤ 0x39) := by omega
      simp only [digitVal, if_neg hdec, if_pos (And.intro hlo hhi)]
      exact if_pos (by omega)
    · rw [Md5.hexDigit, if_neg (by omega), show 0x57 + (c.toNat - 0x57) = c.toNat by omega, hself]

/-- The digit of a value is one as it is written. -/
theorem isLowerHex_hexDigit {d : ℕ} (h : d < 16) : isLowerHex (Md5.hexDigit d) = true := by
  have hall : ∀ d : Fin 16, isLowerHex (Md5.hexDigit d.val) = true := by decide
  exact hall ⟨d, h⟩

/-- The number of a pair of characters. -/
theorem parseUnsigned_pair (a b : Char) :
    parseUnsigned 16 256 [a, b] =
      if a = '+' then digitVal 16 b
      else (digitVal 16 a).bind fun x => (digitVal 16 b).map fun y => x * 16 + y := by
  by_cases ha : a = '+'
  · subst ha
    rw [if_pos rfl, parseUnsigned, show dropPrefix ['+'] ['+', b] = [b] from rfl]
    cases hb : digitVal 16 b with
    | none => simp [hb]
    | some y =>
        have hy := digitVal_lt hb
        simp [hb, show y < 256 by omega]
  · have hdrop : dropPrefix ['+'] [a, b] = [a, b] := by simp [dropPrefix, List.dropPrefix?, ha]
    rw [if_neg ha, parseUnsigned, hdrop]
    cases hx : digitVal 16 a with
    | none => simp [hx]
    | some x =>
        cases hy : digitVal 16 b with
        | none => simp [hx, hy]
        | some y =>
            have := digitVal_lt hx
            have := digitVal_lt hy
            simp [hx, hy, show x * 16 + y < 256 by omega]

/-- What the parser of integers reads of a pair is a number of the width of a byte. -/
theorem isSome_parseUnsigned_pair (a b : Char) :
    (parseUnsigned 16 256 [a, b]).isSome = pairReadable a b := by
  have hplus : digitVal 16 '+' = none := by decide
  rw [parseUnsigned_pair, pairReadable, isHexDigit, isHexDigit]
  by_cases ha : a = '+'
  · simp [ha]
  · cases digitVal 16 a <;> cases digitVal 16 b <;> simp [ha]

/-- A pair of digits as they are written is what its byte is encoded as. -/
theorem parseUnsigned_lower {a b : Char} (ha : isLowerHex a = true) (hb : isLowerHex b = true) :
    ∃ n, parseUnsigned 16 256 [a, b] = some n ∧ lowerHex (UInt8.ofNat n) = [a, b] := by
  obtain ⟨x, hx, hax⟩ := hexDigit_of_lower ha
  obtain ⟨y, hy, hby⟩ := hexDigit_of_lower hb
  have hxlt := digitVal_lt hx
  have hylt := digitVal_lt hy
  have hsign : a ≠ '+' := by
    rintro rfl
    exact absurd ha (by decide)
  refine ⟨x * 16 + y, by rw [parseUnsigned_pair, if_neg hsign, hx, hy]; rfl, ?_⟩
  have hval : (UInt8.ofNat (x * 16 + y)).toNat = x * 16 + y :=
    UInt8.toNat_ofNat_of_lt' (by show _ < 256; omega)
  rw [lowerHex, hval, show (x * 16 + y) / 16 = x by omega, show (x * 16 + y) % 16 = y by omega,
    hax, hby]

/-- The pair of a byte is read as the byte. -/
theorem parseUnsigned_lowerHex (byte : UInt8) :
    parseUnsigned 16 256 (lowerHex byte) = some byte.toNat := by
  have hb := byte.toNat_lt
  have hhigh : byte.toNat / 16 < 16 := by omega
  have hlow : byte.toNat % 16 < 16 := Nat.mod_lt _ (by omega)
  have hsign : Md5.hexDigit (byte.toNat / 16) ≠ '+' := fun h =>
    absurd (h ▸ isLowerHex_hexDigit hhigh) (by decide)
  rw [lowerHex, parseUnsigned_pair, if_neg hsign, digitVal_hexDigit hhigh, digitVal_hexDigit hlow,
    Option.bind_some, Option.map_some, Nat.div_add_mod' byte.toNat 16]

/-! ### All pairs -/

/-- Decoding goes through the pairs of ASCII text. -/
theorem decodeAt_append (k : ℕ) (pre s : List Char) (hascii : ∀ c ∈ pre ++ s, c.toNat < 128)
    (hlen : s.length = 2 * k) :
    decodeAt (pre ++ s) (List.range' pre.length k 2) = some (decodePairs pre.length s) := by
  induction k generalizing pre s with
  | zero =>
      rw [List.eq_nil_of_length_eq_zero hlen]
      rfl
  | succ k ih =>
      obtain ⟨a, b, s, rfl⟩ : ∃ a b t, s = a :: b :: t := by
        rcases s with _ | ⟨a, _ | ⟨b, t⟩⟩
        · simp at hlen
        · simp at hlen; omega
        · exact ⟨a, b, t, rfl⟩
      have hpre : utf8Len pre = pre.length :=
        utf8Len_eq_length fun c hc => hascii c (List.mem_append_left _ hc)
      have hpair : utf8Len [a, b] = 2 := utf8Len_eq_length fun c hc => hascii c
        (List.mem_append_right _ (List.mem_append_left s hc))
      have hslice : strSlice (pre ++ a :: b :: s) pre.length (pre.length + 2) = some [a, b] := by
        have h := strSlice_append pre [a, b] s
        rwa [hpre, hpair] at h
      have hassoc : pre ++ a :: b :: s = (pre ++ [a, b]) ++ s := by simp
      have hrest := ih (pre ++ [a, b]) s (hassoc ▸ hascii)
        (by simp only [List.length_cons] at hlen; omega)
      rw [List.length_append, show [a, b].length = 2 from rfl, ← hassoc] at hrest
      rw [List.range'_succ, decodeAt, hslice, Option.bind_some, decodePairs, hrest]
      cases parseUnsigned 16 256 [a, b] <;> rfl

/-- Decoding of ASCII text in pairs, which never panics. -/
theorem hexDecode_eq {hex : String} (heven : hex.toList.length % 2 = 0)
    (hascii : ∀ c ∈ hex.toList, c.toNat < 128) : hexDecode hex = some (decodePairs 0 hex.toList) := by
  have hlen : utf8Len hex.toList = hex.toList.length := utf8Len_eq_length hascii
  simp only [hexDecode]
  rw [hlen, if_neg (not_not_intro heven), if_neg (not_not_intro ((isAscii_iff _).mpr hascii)),
    show (hex.toList.length + 1) / 2 = hex.toList.length / 2 by omega]
  exact decodeAt_append (hex.toList.length / 2) [] hex.toList hascii (by omega)

/-- The text of some bytes is read as the bytes. -/
theorem decodePairs_flatMap (data : List UInt8) (i : ℕ) :
    decodePairs i (data.flatMap lowerHex) = .ok data := by
  induction data generalizing i with
  | nil => rfl
  | cons byte data ih =>
      rw [List.flatMap_cons]
      change decodePairs i (_ :: _ :: data.flatMap lowerHex) = _
      rw [decodePairs, ← lowerHex, parseUnsigned_lowerHex, ih]
      simp [Except.map]

/-- Text is decoded if all its pairs are read. -/
theorem exists_decodePairs_iff {s : List Char} (heven : s.length % 2 = 0) (i : ℕ) :
    (∃ data, decodePairs i s = .ok data) ↔ PairsReadable s := by
  induction s using PairsReadable.induct generalizing i with
  | case1 => exact ⟨fun _ => trivial, fun _ => ⟨[], rfl⟩⟩
  | case2 a => simp at heven
  | case3 a b s ih =>
      have heven' : s.length % 2 = 0 := by simp only [List.length_cons] at heven; omega
      rw [PairsReadable, ← isSome_parseUnsigned_pair, ← ih heven' (i + 2), decodePairs]
      cases parseUnsigned 16 256 [a, b] with
      | none => simp
      | some n =>
          rw [Option.isSome_some, eq_self, true_and]
          refine ⟨fun ⟨data, h⟩ => ?_, fun ⟨data, h⟩ => ⟨UInt8.ofNat n :: data, by rw [h]; rfl⟩⟩
          cases hrest : decodePairs (i + 2) s with
          | error e => rw [hrest] at h; cases h
          | ok rest => exact ⟨rest, rfl⟩

/-- Text of digits as they are written is the text of some bytes. -/
theorem exists_flatMap_lowerHex {s : List Char} (heven : s.length % 2 = 0)
    (hlower : ∀ c ∈ s, isLowerHex c = true) : ∃ data : List UInt8, s = data.flatMap lowerHex := by
  induction s using PairsReadable.induct with
  | case1 => exact ⟨[], rfl⟩
  | case2 a => simp at heven
  | case3 a b s ih =>
      obtain ⟨data, hdata⟩ := ih (by simp only [List.length_cons] at heven; omega)
        fun c hc => hlower c (List.mem_cons_of_mem _ (List.mem_cons_of_mem _ hc))
      obtain ⟨n, -, hn⟩ := parseUnsigned_lower (hlower a List.mem_cons_self)
        (hlower b (List.mem_cons_of_mem _ List.mem_cons_self))
      exact ⟨UInt8.ofNat n :: data, by rw [List.flatMap_cons, hn, ← hdata]; rfl⟩

/-! ### The law -/

theorem toList_hexEncode (data : List UInt8) : (hexEncode data).toList = data.flatMap lowerHex :=
  String.toList_ofList

/-- The text of some bytes is of digits as they are written. -/
theorem isLowerHex_of_mem {data : List UInt8} {c : Char} (h : c ∈ data.flatMap lowerHex) :
    isLowerHex c = true := by
  obtain ⟨byte, -, hc⟩ := List.mem_flatMap.mp h
  have hb := byte.toNat_lt
  rcases List.mem_pair.mp hc with rfl | rfl
  · exact isLowerHex_hexDigit (by omega)
  · exact isLowerHex_hexDigit (Nat.mod_lt _ (by omega))

theorem lt_of_isLowerHex {c : Char} (h : isLowerHex c = true) : c.toNat < 128 := by
  have := of_decide_eq_true h
  omega

/-- The text of some bytes has an even number of characters. -/
theorem length_flatMap_lowerHex (data : List UInt8) : (data.flatMap lowerHex).length = 2 * data.length := by
  rw [List.length_flatMap]
  simp [lowerHex, Nat.mul_comm]

/-- What is encoded is decoded again. -/
theorem hexDecode_encoded (data : List UInt8) : hexDecode (hexEncode data) = some (.ok data) := by
  have heven : (hexEncode data).toList.length % 2 = 0 := by
    rw [toList_hexEncode, length_flatMap_lowerHex, Nat.mul_mod_right]
  rw [hexDecode_eq heven fun c hc => lt_of_isLowerHex (isLowerHex_of_mem (toList_hexEncode data ▸ hc)),
    toList_hexEncode, decodePairs_flatMap]

/-- A character of a pair that is read is ASCII. -/
theorem lt_of_isHexDigit {c : Char} (h : isHexDigit c = true) : c.toNat < 128 := by
  by_contra hc
  have hnone : digitVal 16 c = none := by
    unfold digitVal
    extract_lets n e
    have he : e = 16 := by
      simp only [e]
      rw [if_neg (by omega), if_neg (by omega), if_neg (by omega)]
    exact if_neg (by omega)
  rw [isHexDigit, hnone] at h
  cases h

/-- Text whose pairs are all read is ASCII, of an even number of characters. -/
theorem PairsReadable.ascii {s : List Char} (h : PairsReadable s) :
    s.length % 2 = 0 ∧ ∀ c ∈ s, c.toNat < 128 := by
  induction s using PairsReadable.induct with
  | case1 => exact ⟨rfl, fun c hc => absurd hc List.not_mem_nil⟩
  | case2 a => exact h.elim
  | case3 a b s ih =>
      obtain ⟨hpair, hs⟩ := h
      obtain ⟨hfirst, hb⟩ := Bool.and_eq_true_iff.mp hpair
      have ha : a.toNat < 128 := by
        rcases Bool.or_eq_true_iff.mp hfirst with ha | ha
        · exact lt_of_isHexDigit ha
        · rw [beq_iff_eq.mp ha]
          decide
      obtain ⟨heven, hascii⟩ := ih hs
      refine ⟨by simp only [List.length_cons]; omega, fun c hc => ?_⟩
      rcases List.mem_cons.mp hc with rfl | hc
      · exact ha
      · rcases List.mem_cons.mp hc with rfl | hc
        · exact lt_of_isHexDigit hb
        · exact hascii c hc

/-- Text that is no encoding and not read in pairs is an error, and nothing panics. -/
theorem exists_hexDecode (hex : String) :
    ∃ r, hexDecode hex = some r ∧ ((∃ data, r = .ok data) ↔ PairsReadable hex.toList) := by
  by_cases hascii : ∀ c ∈ hex.toList, c.toNat < 128
  · have hlen : utf8Len hex.toList = hex.toList.length := utf8Len_eq_length hascii
    by_cases heven : hex.toList.length % 2 = 0
    · exact ⟨_, hexDecode_eq heven hascii, exists_decodePairs_iff heven 0⟩
    · refine ⟨_, if_pos (by rwa [hlen]), fun ⟨data, h⟩ => ?_, fun h => (heven h.ascii.1).elim⟩
      cases h
  · by_cases hodd : utf8Len hex.toList % 2 = 0
    · refine ⟨_, (if_neg (not_not_intro hodd)).trans
        (if_pos (mt (isAscii_iff _).mp hascii)), fun ⟨data, h⟩ => ?_,
        fun h => (hascii h.ascii.2).elim⟩
      cases h
    · refine ⟨_, if_pos hodd, fun ⟨data, h⟩ => ?_, fun h => (hascii h.ascii.2).elim⟩
      cases h

/-- Decoding accepts nothing but what encoding writes: every other text is an error. -/
def Lawful (hex : String) : Prop :=
  ∃ r, hexDecode hex = some r ∧ ∀ data, r = .ok data → hex = hexEncode data

/-- Text that is decoded only as what it encodes is of lower-case digits if its pairs are read. -/
theorem Lawful.lower {hex : String} (h : Lawful hex) (hpairs : PairsReadable hex.toList) :
    ∀ c ∈ hex.toList, isLowerHex c = true := by
  obtain ⟨r, hr, hlaw⟩ := h
  obtain ⟨r', hr', hread⟩ := exists_hexDecode hex
  obtain ⟨data, hdata⟩ := hread.mpr hpairs
  intro c hc
  rw [hlaw data (Option.some.inj (hr.symm.trans (hr'.trans (congrArg some hdata)))),
    toList_hexEncode] at hc
  exact isLowerHex_of_mem hc

/-- Bytes survive the round trip, and a text is decoded only as what it encodes exactly where its pairs
are not all read by the parser of integers, or are of lower-case digits alone. -/
theorem hexDecode_lawful (data : List UInt8) (hex : String) :
    hexDecode (hexEncode data) = some (.ok data) ∧
    (Lawful hex ↔ (PairsReadable hex.toList → ∀ c ∈ hex.toList, isLowerHex c = true)) := by
  refine ⟨hexDecode_encoded data, Lawful.lower, fun hlower => ?_⟩
  obtain ⟨r, hr, hread⟩ := exists_hexDecode hex
  refine ⟨r, hr, fun data hdata => ?_⟩
  have hpairs : PairsReadable hex.toList := hread.mp ⟨data, hdata⟩
  obtain ⟨bytes, hbytes⟩ := exists_flatMap_lowerHex hpairs.ascii.1 (hlower hpairs)
  have hhex : hex = hexEncode bytes := String.toList_inj.mp (hbytes.trans (toList_hexEncode bytes).symm)
  -- what is decoded is what was encoded
  have hdecoded := hexDecode_encoded bytes
  rw [← hhex, hr, hdata] at hdecoded
  rw [hhex, Except.ok.inj (Option.some.inj hdecoded)]

/-- Capital digits are decoded, and so is a sign with a digit. -/
theorem not_lawful_capitals : ¬ Lawful "AB" ∧ ¬ Lawful "+f" := by
  have hcapitals : "AB".toList = ['A', 'B'] := by decide
  have hsign : "+f".toList = ['+', 'f'] := by decide
  refine ⟨fun h => ?_, fun h => ?_⟩
  · have hlower := h.lower (hcapitals ▸ ⟨by decide, trivial⟩) 'A' (hcapitals ▸ by decide)
    exact absurd hlower (by decide)
  · have hlower := h.lower (hsign ▸ ⟨by decide, trivial⟩) '+' (hsign ▸ by decide)
    exact absurd hlower (by decide)

end HexCodec

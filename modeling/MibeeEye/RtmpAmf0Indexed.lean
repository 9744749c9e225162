/-
**AMF0: the parser on positions.**

`crates/protocols/src/rtmp/amf0.rs` once more, this time with the positions and the reads of the
source.  `Amf0Value::parse` and its helpers take the whole slice and an offset; some return an
absolute position, others a number of bytes consumed, and each nested value is parsed from a slice
of its own.  Every index and every slice is checked here as the language checks it, and one out of
range panics (`Checked.Run`).

None ever is.  The parser on positions returns what `Rtmp.Amf0Value.parse` computes on the bytes
themselves, and the grammar of that parser says that what follows a value does not matter.

Main definitions:

* `Rtmp.Amf0Value.Indexed.parse` — `Amf0Value::parse`, with a fuel for its recursion.

Main results:

* `Rtmp.Amf0Value.Indexed.parse_eq` — **the two parsers agree**: no read is out of range, and the
  fuel is enough;
* `Rtmp.Amf0Value.Indexed.parse_prefix` — **what was parsed is determined by the bytes consumed**.
-/

import MibeeEye.CheckedReads
import MibeeEye.RtmpAmf0Grammar

set_option relaxedAutoImplicit false
set_option autoImplicit false

namespace Rtmp

namespace Amf0Value

namespace Indexed

open Wire Checked

/-! ### The parser -/

/-- A big-endian number from `k` single reads. -/
def readBe (data : List UInt8) (i k : ℕ) : Run String ℕ := do
  let bytes ← bytesAt data i k
  return ofBe bytes

/-- A string from a slice. -/
def readUtf8 (data : List UInt8) (i j : ℕ) (invalid : String) : Run String String := do
  let bytes ← range data i j
  match fromUtf8 bytes with
  | none => bail invalid
  | some s => return s

/-- `Amf0Value::parse_date`. -/
def parseDate (data : List UInt8) (offset : ℕ) : Run String (Amf0Value × ℕ) :=
  if data.length < offset + 10 then bail "Insufficient data for AMF0 date"
  else do
    let ms ← readBe data offset 8
    let tz ← readBe data (offset + 8) 2
    return (ecmaArray 2 [("ms", number (UInt64.ofNat ms)), ("tz", number (F64.ofNat tz))],
      offset + 10)

/-- `Amf0Value::parse_long_string`. -/
def parseLongString (data : List UInt8) (offset : ℕ) : Run String (Amf0Value × ℕ) :=
  if data.length < offset + 4 then bail "Insufficient data for AMF0 long string length"
  else do
    let len ← readBe data offset 4
    if data.length < offset + 4 + len then bail "Insufficient data for AMF0 long string value"
    else do
      let value ← readUtf8 data (offset + 4) (offset + 4 + len) "Invalid UTF-8 in AMF0 long string"
      return (string value, offset + 4 + len)

/-- `Amf0Value::parse_xml`: XML is encoded like a long string. -/
def parseXml (data : List UInt8) (offset : ℕ) : Run String (Amf0Value × ℕ) :=
  parseLongString data offset

/-- The markers of `Amf0Value::parse` whose values have no nested ones. -/
def parseScalar (marker : UInt8) (data : List UInt8) (offset : ℕ) :
    Option (Run String (Amf0Value × ℕ)) :=
  if marker = amf0Number then
    some (if data.length < offset + 8 then bail "Insufficient data for AMF0 number"
      else do
        let bits ← readBe data offset 8
        return (number (UInt64.ofNat bits), offset + 8))
  else if marker = amf0Boolean then
    some (if data.length < offset + 1 then bail "Insufficient data for AMF0 boolean"
      else do
        let b ← byteAt data offset
        return (boolean (b != 0), offset + 1))
  else if marker = amf0String then
    some (if data.length < offset + 2 then bail "Insufficient data for AMF0 string length"
      else do
        let len ← readBe data offset 2
        if data.length < offset + 2 + len then bail "Insufficient data for AMF0 string value"
        else do
          let value ← readUtf8 data (offset + 2) (offset + 2 + len) "Invalid UTF-8 in AMF0 string"
          return (string value, offset + 2 + len))
  else if marker = amf0Null then some (return (null, offset))
  else if marker = amf0Undefined then some (return (undefined, offset))
  else if marker = amf0Date then some (parseDate data offset)
  else if marker = amf0LongString then some (parseLongString data offset)
  else if marker = amf0Xml then some (parseXml data offset)
  else if marker = amf0Amf3 then some (bail "AMF3 encoding not supported")
  else none

/-- Whether the entries of an object end here: after an empty key the next byte is looked at, and
after any other none is. -/
def endsAfter (keyLen : ℕ) (data : List UInt8) (pos : ℕ) : Run String Bool :=
  if keyLen = 0 then do
    let b ← byteAt data pos
    return b == amf0ObjectEnd
  else return false

mutual

/-- **`Amf0Value::parse`.** -/
@[grind =] def parse : ℕ → List UInt8 → Run String (Amf0Value × ℕ)
  | 0, _ => .error .outOfFuel
  | fuel + 1, data =>
      if data = [] then bail "Cannot parse AMF0 value from empty data"
      else do
        let marker ← byteAt data 0
        let offset := 1
        match parseScalar marker data offset with
        | some result => result
        | none =>
            if marker = amf0Object then do
              let (entries, pos) ← parseObjectEntries fuel data offset []
              return (object entries, offset + (pos - offset))
            else if marker = amf0EcmaArray then
              if data.length < offset + 4 then bail "Insufficient data for AMF0 ECMA array count"
              else do
                let count ← readBe data offset 4
                let (entries, pos) ← parseObjectEntries fuel data (offset + 4) []
                return (ecmaArray count entries, offset + 4 + (pos - (offset + 4)))
            else if marker = amf0StrictArray then
              if data.length < offset + 4 then
                bail "Insufficient data for AMF0 strict array count"
              else do
                let count ← readBe data offset 4
                let (entries, pos) ← parseStrictArray fuel count data (offset + 4) []
                return (ecmaArray count entries, pos)
            else if marker = amf0TypedObject then
              if data.length < offset + 2 then
                bail "Insufficient data for AMF0 typed object class name length"
              else do
                let classNameLen ← readBe data offset 2
                if data.length < offset + 2 + classNameLen then
                  bail "Insufficient data for AMF0 typed object class name"
                else do
                  let _ ← readUtf8 data (offset + 2) (offset + 2 + classNameLen)
                    "Invalid UTF-8 in AMF0 typed object class name"
                  let start := offset + 2 + classNameLen
                  let (entries, pos) ← parseObjectEntries fuel data start []
                  let consumed := pos - start
                  if data.length < start + consumed + 3 then
                    bail "Insufficient data for AMF0 typed object end marker"
                  else do
                    let trailer ← range data (start + consumed) (start + consumed + 3)
                    if trailer ≠ [0x00, 0x00, amf0ObjectEnd] then
                      bail "Invalid AMF0 typed object end marker"
                    else return (object entries, start + consumed + 3)
            else
              let digits := hex2 marker
              bail s!"Unknown AMF0 type marker: 0x{digits}"

/-- The loop of `Amf0Value::parse_object_entries`: the entries so far, and the position it ends
at. -/
@[grind =] def parseObjectEntries :
    ℕ → List UInt8 → ℕ → List (String × Amf0Value) → Run String (List (String × Amf0Value) × ℕ)
  | 0, _, _, _ => .error .outOfFuel
  | fuel + 1, data, pos, entries =>
      if data.length < pos + 2 then bail "Insufficient data for AMF0 object key length"
      else do
        let keyLen ← readBe data pos 2
        if keyLen = 0 ∧ data.length < pos + 2 + 1 then
          bail "Insufficient data for AMF0 object end marker"
        else do
          let ended ← endsAfter keyLen data (pos + 2)
          if ended then return (entries, pos + 2 + 1)
          else if data.length < pos + 2 + keyLen then
            bail "Insufficient data for AMF0 object key value"
          else do
            let key ← readUtf8 data (pos + 2) (pos + 2 + keyLen) "Invalid UTF-8 in AMF0 object key"
            let rest ← suffixFrom data (pos + 2 + keyLen)
            let (value, consumed) ← parse fuel rest
            parseObjectEntries fuel data (pos + 2 + keyLen + consumed) (entries ++ [(key, value)])

/-- The loop of `Amf0Value::parse_strict_array`, with `count` more values to come. -/
@[grind =] def parseStrictArray :
    ℕ → ℕ → List UInt8 → ℕ → List (String × Amf0Value) → Run String (List (String × Amf0Value) × ℕ)
  | _, 0, _, pos, entries => .ok (entries, pos)
  | 0, _ + 1, _, _, _ => .error .outOfFuel
  | fuel + 1, count + 1, data, pos, entries => do
      let rest ← suffixFrom data pos
      let (value, consumed) ← parse fuel rest
      parseStrictArray fuel count data (pos + consumed)
        (entries ++ [(toString entries.length, value)])

end

/-! ### Reads within the bounds -/

theorem readBe_eq {data : List UInt8} {i k : ℕ} (h : i + k ≤ data.length) :
    readBe data i k = .ok (ofBe ((data.drop i).take k)) := by
  rw [readBe, bytesAt_eq h]
  rfl

theorem readUtf8_eq {data : List UInt8} {i j : ℕ} {invalid : String} (hij : i ≤ j)
    (hj : j ≤ data.length) :
    readUtf8 data i j invalid = match fromUtf8 (slice data i j) with
      | none => bail invalid
      | some s => .ok s := by
  rw [readUtf8, range_eq hij hj]
  rfl

theorem slice_cons (b : UInt8) (data : List UInt8) (i j : ℕ) :
    slice (b :: data) (1 + i) (1 + j) = slice data i j := by
  rw [slice, slice, Nat.add_comm 1 i, List.drop_succ_cons, show 1 + j - (i + 1) = j - i by omega]

theorem endsAfter_eq {keyLen : ℕ} {data : List UInt8} {pos : ℕ}
    (h : ¬ (keyLen = 0 ∧ (data.drop pos).length < 1)) :
    endsAfter keyLen data pos =
      .ok (decide (keyLen = 0 ∧ (data.drop pos).head? = some amf0ObjectEnd)) := by
  unfold endsAfter
  split
  · rename_i hzero
    rw [List.length_drop] at h
    have hpos : pos < data.length := by omega
    rw [byteAt_eq hpos, ok_bind, List.head?_drop, List.getElem?_eq_getElem hpos]
    simp only [hzero, true_and, Option.some.injEq, beq_eq_decide]
    rfl
  · rename_i hne
    simp only [hne, false_and, decide_false]
    rfl

/-! ### The two parsers agree -/

theorem parseLongString_eq (marker : UInt8) (body : List UInt8) :
    parseLongString (marker :: body) 1 = returned (Amf0Value.parseLongString body) := by
  simp only [parseLongString, Amf0Value.parseLongString, List.length_cons]
  by_cases hfour : body.length < 4
  · rw [if_pos (by omega), if_pos hfour]
    rfl
  rw [if_neg (by omega), if_neg hfour, readBe_eq (by rw [List.length_cons]; omega), ok_bind,
    List.drop_one, List.tail_cons]
  by_cases hlen : body.length < 4 + ofBe (body.take 4)
  · rw [if_pos (by omega), if_pos hlen]
    rfl
  rw [if_neg (by omega), if_neg hlen,
    readUtf8_eq (by omega) (by rw [List.length_cons]; omega), Nat.add_assoc, slice_cons]
  cases fromUtf8 (slice body 4 (4 + ofBe (body.take 4))) with
  | none => rfl
  | some value => simp only [ok_bind, returned_ok]; rfl

theorem parseDate_eq (marker : UInt8) (body : List UInt8) :
    parseDate (marker :: body) 1 = returned (Amf0Value.parseDate body) := by
  simp only [parseDate, Amf0Value.parseDate, List.length_cons]
  by_cases hlen : body.length < 10
  · rw [if_pos (by omega), if_pos hlen]
    rfl
  rw [if_neg (by omega), if_neg hlen, readBe_eq (by rw [List.length_cons]; omega), ok_bind,
    readBe_eq (by rw [List.length_cons]; omega), ok_bind]
  rfl

/-- **Values without nested ones.** -/
theorem parseScalar_eq (marker : UInt8) (body : List UInt8) :
    parseScalar marker (marker :: body) 1 =
      (Amf0Value.parseScalar marker body).map returned := by
  unfold parseScalar Amf0Value.parseScalar
  simp only [List.length_cons]
  by_cases hmarker : marker = amf0Number
  · rw [if_pos hmarker, if_pos hmarker, Option.map_some]
    by_cases hlen : body.length < 8
    · rw [if_pos (by omega), if_pos hlen]
      rfl
    · rw [if_neg (by omega), if_neg hlen, readBe_eq (by rw [List.length_cons]; omega), ok_bind]
      rfl
  rw [if_neg hmarker, if_neg hmarker]
  by_cases hmarker : marker = amf0Boolean
  · rw [if_pos hmarker, if_pos hmarker, Option.map_some]
    cases body with
    | nil => rfl
    | cons b rest =>
        rw [if_neg (by rw [List.length_cons]; omega)]
        rfl
  rw [if_neg hmarker, if_neg hmarker]
  by_cases hmarker : marker = amf0String
  · rw [if_pos hmarker, if_pos hmarker, Option.map_some]
    by_cases htwo : body.length < 2
    · rw [if_pos (by omega), if_pos htwo]
      rfl
    rw [if_neg (by omega), if_neg htwo, readBe_eq (by rw [List.length_cons]; omega), ok_bind,
      List.drop_one, List.tail_cons]
    by_cases hlen : body.length < 2 + ofBe (body.take 2)
    · rw [if_pos (by omega), if_pos hlen]
      rfl
    rw [if_neg (by omega), if_neg hlen,
      readUtf8_eq (by omega) (by rw [List.length_cons]; omega), Nat.add_assoc, slice_cons]
    cases fromUtf8 (slice body 2 (2 + ofBe (body.take 2))) with
    | none => rfl
    | some value => simp only [ok_bind, returned_ok]; rfl
  rw [if_neg hmarker, if_neg hmarker]
  by_cases hmarker : marker = amf0Null
  · rw [if_pos hmarker, if_pos hmarker]
    rfl
  rw [if_neg hmarker, if_neg hmarker]
  by_cases hmarker : marker = amf0Undefined
  · rw [if_pos hmarker, if_pos hmarker]
    rfl
  rw [if_neg hmarker, if_neg hmarker]
  by_cases hmarker : marker = amf0Date
  · rw [if_pos hmarker, if_pos hmarker, parseDate_eq]
    rfl
  rw [if_neg hmarker, if_neg hmarker]
  by_cases hmarker : marker = amf0LongString
  · rw [if_pos hmarker, if_pos hmarker, parseLongString_eq]
    rfl
  rw [if_neg hmarker, if_neg hmarker]
  by_cases hmarker : marker = amf0Xml
  · rw [if_pos hmarker, if_pos hmarker, parseXml, parseLongString_eq]
    rfl
  rw [if_neg hmarker, if_neg hmarker]
  by_cases hmarker : marker = amf0Amf3
  · rw [if_pos hmarker, if_pos hmarker]
    rfl
  · rw [if_neg hmarker, if_neg hmarker]
    rfl

/-- The three bytes after the entries of a typed object. -/
theorem typedObjectEnd_eq (data : List UInt8) (start n : ℕ) (entries : List (String × Amf0Value))
    (hstart : start ≤ data.length) :
    (if data.length < start + n + 3 then
      bail "Insufficient data for AMF0 typed object end marker"
    else do
      let trailer ← range data (start + n) (start + n + 3)
      if trailer ≠ [0x00, 0x00, amf0ObjectEnd] then bail "Invalid AMF0 typed object end marker"
      else return (object entries, start + n + 3) : Run String (Amf0Value × ℕ)) = returned (
    if (data.drop start).length < n + 3 then
      throw "Insufficient data for AMF0 typed object end marker"
    else if slice (data.drop start) n (n + 3) ≠ [0x00, 0x00, amf0ObjectEnd] then
      throw "Invalid AMF0 typed object end marker"
    else return (object entries, start + n + 3)) := by
  rw [List.length_drop]
  by_cases hlen : data.length < start + n + 3
  · rw [if_pos hlen, if_pos (by omega)]
    rfl
  have hslice : slice (data.drop start) n (n + 3) =
      (data.drop (start + n)).take (start + n + 3 - (start + n)) := by
    rw [slice, List.drop_drop, Nat.add_sub_cancel_left, Nat.add_sub_cancel_left]
  rw [if_neg hlen, if_neg (by omega), range_eq (by omega) (by omega), ok_bind, hslice]
  split
  · rfl
  · rfl

/-- The parser on positions returns what the parser on bytes does, with more fuel than bytes. -/
structure Agrees (fuel : ℕ) : Prop where
  value : ∀ data : List UInt8, data.length < fuel →
    parse fuel data = returned (parseF fuel data)
  objectEntries : ∀ (data : List UInt8) (pos : ℕ) (acc : List (String × Amf0Value)),
    pos ≤ data.length → data.length < pos + fuel →
    parseObjectEntries fuel data pos acc = returned (do
      let (entries, n) ← Amf0Value.parseObjectEntries fuel (data.drop pos)
      return (acc ++ entries, pos + n))
  strictArray : ∀ (count : ℕ) (data : List UInt8) (pos : ℕ) (acc : List (String × Amf0Value)),
    pos ≤ data.length → data.length + 1 < pos + fuel →
    parseStrictArray fuel count data pos acc = returned (do
      let (entries, n) ← parseStrictEntries fuel count acc.length (data.drop pos)
      return (acc ++ entries, pos + n))

namespace Agrees

variable {fuel : ℕ}

theorem zero : Agrees 0 where
  value := by
    intro data h
    omega
  objectEntries := by
    intro data pos acc hpos h
    omega
  strictArray := by
    intro count data pos acc hpos h
    omega

/-- A value, from what it nests. -/
theorem value_succ (h : Agrees fuel) : ∀ data : List UInt8, data.length < fuel + 1 →
    parse (fuel + 1) data = returned (parseF (fuel + 1) data) := by
  intro data hlen
  cases data with
  | nil => rfl
  | cons marker body =>
      rw [List.length_cons] at hlen
      have hbody : ∀ k, (marker :: body).drop (1 + k) = body.drop k := by
        intro k
        rw [Nat.add_comm, List.drop_succ_cons]
      have htake : ∀ k, ((marker :: body).drop 1).take k = body.take k := fun k => rfl
      rw [parse, if_neg (List.cons_ne_nil _ _), parseF]
      change (match parseScalar marker (marker :: body) 1 with
        | some result => result
        | none => _) = _
      rw [parseScalar_eq]
      cases Amf0Value.parseScalar marker body with
      | some result => rfl
      | none =>
          simp only [Option.map_none, List.length_cons]
          by_cases hmarker : marker = amf0Object
          · rw [if_pos hmarker, if_pos hmarker]
            rw [h.objectEntries _ _ _ (by rw [List.length_cons]; omega)
              (by rw [List.length_cons]; omega), hbody 0, List.drop_zero]
            cases Amf0Value.parseObjectEntries fuel body with
            | error e => rfl
            | ok result =>
                change Except.ok (_, 1 + (1 + result.2 - 1)) = Except.ok (_, _)
                rw [Nat.add_sub_cancel_left]
                rfl
          rw [if_neg hmarker, if_neg hmarker]
          by_cases hmarker : marker = amf0EcmaArray
          · rw [if_pos hmarker, if_pos hmarker]
            by_cases hfour : body.length < 4
            · rw [if_pos (by omega), if_pos hfour]
              rfl
            rw [if_neg (by omega), if_neg hfour, readBe_eq (by rw [List.length_cons]; omega),
              ok_bind, htake, h.objectEntries _ _ _ (by rw [List.length_cons]; omega)
              (by rw [List.length_cons]; omega), hbody 4]
            cases Amf0Value.parseObjectEntries fuel (body.drop 4) with
            | error e => rfl
            | ok result =>
                change Except.ok (_, 1 + 4 + (1 + 4 + result.2 - (1 + 4))) = Except.ok (_, _)
                rw [Nat.add_sub_cancel_left]
                rfl
          rw [if_neg hmarker, if_neg hmarker]
          by_cases hmarker : marker = amf0StrictArray
          · rw [if_pos hmarker, if_pos hmarker]
            by_cases hfour : body.length < 4
            · rw [if_pos (by omega), if_pos hfour]
              rfl
            rw [if_neg (by omega), if_neg hfour, readBe_eq (by rw [List.length_cons]; omega),
              ok_bind, htake, ← hbody 4, h.strictArray _ _ _ _ (by rw [List.length_cons]; omega)
              (by rw [List.length_cons]; omega)]
            cases parseStrictEntries fuel (ofBe (body.take 4)) ([] : List (String × Amf0Value)).length
              ((marker :: body).drop (1 + 4)) with
            | error e => rfl
            | ok result => rfl
          rw [if_neg hmarker, if_neg hmarker]
          by_cases hmarker : marker = amf0TypedObject
          · rw [if_pos hmarker, if_pos hmarker]
            by_cases htwo : body.length < 2
            · rw [if_pos (by omega), if_pos htwo]
              rfl
            rw [if_neg (by omega), if_neg htwo, readBe_eq (by rw [List.length_cons]; omega),
              ok_bind, htake]
            by_cases hname : body.length < 2 + ofBe (body.take 2)
            · rw [if_pos (by omega), if_pos hname]
              rfl
            rw [if_neg (by omega), if_neg hname,
              readUtf8_eq (by omega) (by rw [List.length_cons]; omega), Nat.add_assoc 1 2,
              slice_cons]
            cases fromUtf8 (slice body 2 (2 + ofBe (body.take 2))) with
            | none => rfl
            | some className =>
                rw [ok_bind, h.objectEntries _ _ _ (by rw [List.length_cons]; omega)
                  (by rw [List.length_cons]; omega), hbody]
                dsimp only
                cases Amf0Value.parseObjectEntries fuel (body.drop (2 + ofBe (body.take 2))) with
                | error e => rfl
                | ok result =>
                    obtain ⟨entries, n⟩ := result
                    have hend := typedObjectEnd_eq (marker :: body) (1 + (2 + ofBe (body.take 2))) n
                      entries (by rw [List.length_cons]; omega)
                    rw [hbody, List.length_cons] at hend
                    simp only [bind, Except.bind, pure, Except.pure, returned_ok, List.nil_append,
                      Nat.add_sub_cancel_left] at hend ⊢
                    exact hend
          · rw [if_neg hmarker, if_neg hmarker]
            rfl

/-- The entries of an object: those read so far stand before the ones still to come. -/
theorem objectEntries_succ (h : Agrees fuel) :
    ∀ (data : List UInt8) (pos : ℕ) (acc : List (String × Amf0Value)), pos ≤ data.length →
      data.length < pos + (fuel + 1) →
      parseObjectEntries (fuel + 1) data pos acc = returned (do
        let (entries, n) ← Amf0Value.parseObjectEntries (fuel + 1) (data.drop pos)
        return (acc ++ entries, pos + n)) := by
  intro data pos acc hpos hfuel
  rw [parseObjectEntries, Amf0Value.parseObjectEntries, List.length_drop, List.drop_drop]
  by_cases htwo : data.length < pos + 2
  · rw [if_pos htwo, if_pos (by omega)]
    rfl
  rw [if_neg htwo, if_neg (by omega), readBe_eq (by omega), ok_bind]
  dsimp only
  generalize hkeyLen : ofBe ((data.drop pos).take 2) = keyLen
  have hempty : (keyLen = 0 ∧ data.length < pos + 2 + 1) ↔
      keyLen = 0 ∧ (data.drop (pos + 2)).length < 1 := by
    rw [List.length_drop]
    omega
  by_cases hnone : keyLen = 0 ∧ (data.drop (pos + 2)).length < 1
  · rw [if_pos (hempty.2 hnone), if_pos hnone]
    rfl
  rw [if_neg (fun h => hnone (hempty.1 h)), if_neg hnone, endsAfter_eq hnone, ok_bind]
  by_cases hend : keyLen = 0 ∧ (data.drop (pos + 2)).head? = some amf0ObjectEnd
  · rw [if_pos (decide_eq_true hend), if_pos hend]
    simp only [bind, Except.bind, pure, Except.pure, returned_ok, List.append_nil]
  rw [if_neg (by rw [decide_eq_true_iff]; exact hend), if_neg hend, List.length_drop]
  by_cases hkey : data.length < pos + 2 + keyLen
  · rw [if_pos hkey, if_pos (by omega)]
    rfl
  rw [if_neg hkey, if_neg (by omega), readUtf8_eq (by omega) (by omega), slice,
    Nat.add_sub_cancel_left]
  cases fromUtf8 ((data.drop (pos + 2)).take keyLen) with
  | none => rfl
  | some key =>
      dsimp only
      rw [ok_bind, suffixFrom_eq (by omega), ok_bind, List.drop_drop, h.value _
        (by rw [List.length_drop]; omega)]
      cases hvalue : parseF fuel (data.drop (pos + 2 + keyLen)) with
      | error e => rfl
      | ok result =>
          obtain ⟨value, consumed⟩ := result
          have hle := ((parseF_le fuel).value _ _ _ hvalue).2
          rw [List.length_drop] at hle
          simp only [returned_ok, ok_bind]
          rw [h.objectEntries _ _ _ (by omega) (by omega), List.drop_drop,
            show pos + 2 + (keyLen + consumed) = pos + 2 + keyLen + consumed by omega]
          cases Amf0Value.parseObjectEntries fuel (data.drop (pos + 2 + keyLen + consumed)) with
          | error e => rfl
          | ok result =>
              simp only [bind, Except.bind, pure, Except.pure, returned_ok, List.append_assoc,
                List.singleton_append, Nat.add_assoc]

/-- The items of a strict array: their keys count those read so far. -/
theorem strictArray_succ (h : Agrees fuel) :
    ∀ (count : ℕ) (data : List UInt8) (pos : ℕ) (acc : List (String × Amf0Value)),
      pos ≤ data.length → data.length + 1 < pos + (fuel + 1) →
      parseStrictArray (fuel + 1) count data pos acc = returned (do
        let (entries, n) ← parseStrictEntries (fuel + 1) count acc.length (data.drop pos)
        return (acc ++ entries, pos + n)) := by
  intro count data pos acc hpos hfuel
  cases count with
  | zero =>
      rw [parseStrictArray, parseStrictEntries]
      simp only [bind, Except.bind, pure, Except.pure, returned_ok, List.append_nil, Nat.add_zero]
  | succ count =>
      rw [parseStrictArray, parseStrictEntries, suffixFrom_eq hpos, ok_bind,
        h.value _ (by rw [List.length_drop]; omega)]
      cases hvalue : parseF fuel (data.drop pos) with
      | error e => rfl
      | ok result =>
          obtain ⟨value, consumed⟩ := result
          have hle := (parseF_le fuel).value _ _ _ hvalue
          rw [List.length_drop] at hle
          simp only [returned_ok, ok_bind]
          rw [h.strictArray _ _ _ _ (by omega) (by omega), ← List.drop_drop, List.length_append,
            List.length_singleton]
          cases parseStrictEntries fuel count (acc.length + 1) ((data.drop pos).drop consumed) with
          | error e => rfl
          | ok result =>
              simp only [bind, Except.bind, pure, Except.pure, returned_ok, List.append_assoc,
                List.singleton_append, Nat.add_assoc]

end Agrees

/-- With more fuel than bytes the two parsers agree. -/
theorem agrees (fuel : ℕ) : Agrees fuel := by
  induction fuel with
  | zero => exact Agrees.zero
  | succ fuel ih => exact ⟨ih.value_succ, ih.objectEntries_succ, ih.strictArray_succ⟩

/-- **No read is out of range, and the fuel is enough**: the parser on positions returns what the
one on bytes does. -/
theorem parse_eq {fuel : ℕ} {data : List UInt8} (h : data.length < fuel) :
    parse fuel data = returned (Amf0Value.parse data) := by
  rw [(agrees fuel).value data h, parseF_eq_parse h]

/-- **AMF0 is parsed within its bounds, and by a prefix**: whatever the bytes are, the parser
returns, with every sufficient amount of fuel the same, and when it returns a value then that value
depends on the bytes it consumed alone. -/
theorem parse_prefix (data : List UInt8) :
    ∃ result : Except String (Amf0Value × ℕ),
      (∀ fuel, data.length < fuel → parse fuel data = returned result) ∧
      ∀ v n, result = .ok (v, n) → 1 ≤ n ∧ n ≤ data.length ∧
        ∀ (r : List UInt8) (fuel : ℕ), (data.take n ++ r).length < fuel →
          parse fuel (data.take n ++ r) = .ok (v, n) := by
  refine ⟨Amf0Value.parse data, fun fuel hfuel => parse_eq hfuel, ?_⟩
  intro v n hok
  obtain ⟨hpos, hle⟩ := (parseF_le _).value data v n hok
  refine ⟨hpos, hle, ?_⟩
  intro r fuel hfuel
  obtain ⟨w, rest, rfl, rfl, hw⟩ := parse_eq_ok_iff.1 hok
  rw [List.take_left] at hfuel ⊢
  rw [parse_eq hfuel, parse_eq_ok_iff.2 ⟨w, r, rfl, rfl, hw⟩, returned_ok]

end Indexed

end Amf0Value

end Rtmp

/-
**AMF0 values on the wire.**

`crates/protocols/src/rtmp/amf0.rs`.  RTMP commands are sequences of AMF0 values: a marker byte
and a body that depends on it.  Objects and ECMA arrays nest.  `Amf0Value::parse` also understands
strict arrays, dates, long strings, XML and typed objects, which it turns into one of the other
kinds of value; `serialize` never writes those.

An `f64` is the 64-bit pattern that travels, so that two numbers are equal when their patterns
are. The source recurses on slices of its input; here the recursion is on a fuel, and
`Rtmp.Amf0Value.parse` gives one more than there are bytes.  Since every nested call is on a
strictly shorter slice this is always enough; that is shown with the grammar of the parser
(`Rtmp.Amf0Value.parseF_eq_parse`).

Main definitions:

* `Rtmp.F64.ofNat`, `Rtmp.F64.toU32` — the casts between numbers and bit patterns;
* `Rtmp.Amf0Value`, `Rtmp.Amf0Value.serialize`, `Rtmp.Amf0Value.parse`.

Main results:

* `Rtmp.Amf0Value.exists_of_bind_eq_ok`, `Rtmp.Amf0Value.bind_congr_ok` — taking a sequence of steps
  apart.
-/

import MibeeEye.ByteOrder
import MibeeEye.Utf8

set_option relaxedAutoImplicit false
set_option autoImplicit false

namespace Rtmp

open Wire

/-! ### Numbers and digits -/

namespace F64

/-- The `f64` of a natural number below `2 ^ 53`. -/
def ofNat (n : ℕ) : UInt64 :=
  if n = 0 then 0
  else
    let e := n.log2
    UInt64.ofNat ((1023 + e) * 2 ^ 52 + (n - 2 ^ e) * 2 ^ (52 - e))

/-- The cast `as u32` of an `f64`: towards zero, saturating, and zero for a NaN. -/
def toU32 (bits : UInt64) : ℕ :=
  let n := bits.toNat
  let negative := 2 ^ 63 ≤ n
  let exponent := n / 2 ^ 52 % 2 ^ 11
  let mantissa := n % 2 ^ 52
  if exponent = 2047 ∧ mantissa ≠ 0 then 0
  else if negative ∨ exponent < 1023 then 0
  else
    let significand := 2 ^ 52 + mantissa
    let e := exponent - 1023
    min (if e ≤ 52 then significand / 2 ^ (52 - e) else significand * 2 ^ (e - 52)) (2 ^ 32 - 1)

end F64

/-- The digits of a byte, as `{:02x}` prints them. -/
def hex2 (b : UInt8) : String :=
  String.ofList [Nat.digitChar (b.toNat / 16), Nat.digitChar (b.toNat % 16)]

/-! ### Values -/

/-- `Amf0Value`; a number is its bit pattern. -/
inductive Amf0Value
  | number (bits : UInt64)
  | boolean (b : Bool)
  | string (s : String)
  | object (entries : List (String × Amf0Value))
  | null
  | undefined
  | ecmaArray (count : ℕ) (entries : List (String × Amf0Value))

namespace Amf0Value

/-- The type markers. -/
def amf0Number : UInt8 := 0x00
@[inherit_doc amf0Number] def amf0Boolean : UInt8 := 0x01
@[inherit_doc amf0Number] def amf0String : UInt8 := 0x02
@[inherit_doc amf0Number] def amf0Object : UInt8 := 0x03
@[inherit_doc amf0Number] def amf0Null : UInt8 := 0x05
@[inherit_doc amf0Number] def amf0Undefined : UInt8 := 0x06
@[inherit_doc amf0Number] def amf0EcmaArray : UInt8 := 0x08
@[inherit_doc amf0Number] def amf0ObjectEnd : UInt8 := 0x09
@[inherit_doc amf0Number] def amf0StrictArray : UInt8 := 0x0A
@[inherit_doc amf0Number] def amf0Date : UInt8 := 0x0B
@[inherit_doc amf0Number] def amf0LongString : UInt8 := 0x0C
@[inherit_doc amf0Number] def amf0Xml : UInt8 := 0x0F
@[inherit_doc amf0Number] def amf0TypedObject : UInt8 := 0x10
@[inherit_doc amf0Number] def amf0Amf3 : UInt8 := 0x11

/-- A string as it is written after its marker, and as the key of an entry: a two-byte length,
cut off to sixteen bits, and the bytes. -/
def serializeStr (s : String) : List UInt8 := beBytes 2 (asBytes s).length ++ asBytes s

mutual

/-- `Amf0Value::serialize`. -/
@[grind =] def serialize : Amf0Value → List UInt8
  | number bits => amf0Number :: beBytes 8 bits.toNat
  | boolean b => [amf0Boolean, if b then 1 else 0]
  | string s => amf0String :: serializeStr s
  | object entries => amf0Object :: serializeObjectEntries entries ++ [0x00, 0x00, amf0ObjectEnd]
  | null => [amf0Null]
  | undefined => [amf0Undefined]
  | ecmaArray count entries =>
      amf0EcmaArray :: beBytes 4 count ++ serializeObjectEntries entries ++
        [0x00, 0x00, amf0ObjectEnd]

/-- `Amf0Value::serialize_object_entries`. -/
@[grind =] def serializeObjectEntries : List (String × Amf0Value) → List UInt8
  | [] => []
  | (key, value) :: entries =>
      serializeStr key ++ serialize value ++ serializeObjectEntries entries

end

/-! ### Parsing -/

/-- `Amf0Value::parse_date`, on the bytes after the marker. -/
def parseDate (body : List UInt8) : Except String (Amf0Value × ℕ) :=
  if body.length < 10 then .error "Insufficient data for AMF0 date"
  else
    let ms := UInt64.ofNat (ofBe (slice body 0 8))
    let tz := ofBe (slice body 8 10)
    .ok (ecmaArray 2 [("ms", number ms), ("tz", number (F64.ofNat tz))], 1 + 10)

/-- `Amf0Value::parse_long_string`, on the bytes after the marker. -/
def parseLongString (body : List UInt8) : Except String (Amf0Value × ℕ) :=
  if body.length < 4 then .error "Insufficient data for AMF0 long string length"
  else
    let len := ofBe (body.take 4)
    if body.length < 4 + len then .error "Insufficient data for AMF0 long string value"
    else match fromUtf8 (slice body 4 (4 + len)) with
      | none => .error "Invalid UTF-8 in AMF0 long string"
      | some value => .ok (string value, 1 + 4 + len)

/-- `Amf0Value::parse_xml`: XML is encoded like a long string. -/
def parseXml (body : List UInt8) : Except String (Amf0Value × ℕ) := parseLongString body

/-- The values without nested ones, by the marker; `none` for a marker that is not one of theirs. -/
def parseScalar (marker : UInt8) (body : List UInt8) : Option (Except String (Amf0Value × ℕ)) :=
  if marker = amf0Number then
    some (if body.length < 8 then .error "Insufficient data for AMF0 number"
      else .ok (number (UInt64.ofNat (ofBe (body.take 8))), 1 + 8))
  else if marker = amf0Boolean then
    some (match body with
      | [] => .error "Insufficient data for AMF0 boolean"
      | b :: _ => .ok (boolean (b != 0), 1 + 1))
  else if marker = amf0String then
    some (if body.length < 2 then .error "Insufficient data for AMF0 string length"
      else
        let len := ofBe (body.take 2)
        if body.length < 2 + len then .error "Insufficient data for AMF0 string value"
        else match fromUtf8 (slice body 2 (2 + len)) with
          | none => .error "Invalid UTF-8 in AMF0 string"
          | some value => .ok (string value, 1 + 2 + len))
  else if marker = amf0Null then some (.ok (null, 1))
  else if marker = amf0Undefined then some (.ok (undefined, 1))
  else if marker = amf0Date then some (parseDate body)
  else if marker = amf0LongString then some (parseLongString body)
  else if marker = amf0Xml then some (parseXml body)
  else if marker = amf0Amf3 then some (.error "AMF3 encoding not supported")
  else none

/-- The text of an error the fuel of `parse` never lets happen. -/
def outOfFuel : String := "out of fuel"

mutual

/-- `Amf0Value::parse`: the value and the number of bytes it takes. -/
@[grind =] def parseF : ℕ → List UInt8 → Except String (Amf0Value × ℕ)
  | 0, _ => .error outOfFuel
  | _ + 1, [] => .error "Cannot parse AMF0 value from empty data"
  | fuel + 1, marker :: body =>
      match parseScalar marker body with
      | some result => result
      | none =>
          if marker = amf0Object then do
            let (entries, consumed) ← parseObjectEntries fuel body
            return (object entries, 1 + consumed)
          else if marker = amf0EcmaArray then
            if body.length < 4 then .error "Insufficient data for AMF0 ECMA array count"
            else do
              let count := ofBe (body.take 4)
              let (entries, consumed) ← parseObjectEntries fuel (body.drop 4)
              return (ecmaArray count entries, 1 + 4 + consumed)
          else if marker = amf0StrictArray then
            if body.length < 4 then .error "Insufficient data for AMF0 strict array count"
            else do
              let count := ofBe (body.take 4)
              let (entries, consumed) ← parseStrictEntries fuel count 0 (body.drop 4)
              return (ecmaArray count entries, 1 + 4 + consumed)
          else if marker = amf0TypedObject then
            if body.length < 2 then
              .error "Insufficient data for AMF0 typed object class name length"
            else
              let classNameLen := ofBe (body.take 2)
              if body.length < 2 + classNameLen then
                .error "Insufficient data for AMF0 typed object class name"
              else match fromUtf8 (slice body 2 (2 + classNameLen)) with
                | none => .error "Invalid UTF-8 in AMF0 typed object class name"
                | some _ => do
                    let rest := body.drop (2 + classNameLen)
                    let (entries, consumed) ← parseObjectEntries fuel rest
                    -- one more end marker, after the one the entries ended with
                    if rest.length < consumed + 3 then
                      throw "Insufficient data for AMF0 typed object end marker"
                    else if slice rest consumed (consumed + 3) ≠ [0x00, 0x00, amf0ObjectEnd] then
                      throw "Invalid AMF0 typed object end marker"
                    else return (object entries, 1 + 2 + classNameLen + consumed + 3)
          else
            let digits := hex2 marker
            .error s!"Unknown AMF0 type marker: 0x{digits}"

/-- `Amf0Value::parse_object_entries`, on the bytes from its offset on. -/
@[grind =] def parseObjectEntries : ℕ → List UInt8 → Except String (List (String × Amf0Value) × ℕ)
  | 0, _ => .error outOfFuel
  | fuel + 1, data =>
      if data.length < 2 then .error "Insufficient data for AMF0 object key length"
      else
        let keyLen := ofBe (data.take 2)
        let rest := data.drop 2
        if keyLen = 0 ∧ rest.length < 1 then
          .error "Insufficient data for AMF0 object end marker"
        else if keyLen = 0 ∧ rest.head? = some amf0ObjectEnd then .ok ([], 3)
        else if rest.length < keyLen then .error "Insufficient data for AMF0 object key value"
        else match fromUtf8 (rest.take keyLen) with
          | none => .error "Invalid UTF-8 in AMF0 object key"
          | some key => do
              let (value, consumed) ← parseF fuel (rest.drop keyLen)
              let (entries, n) ← parseObjectEntries fuel (rest.drop (keyLen + consumed))
              return ((key, value) :: entries, 2 + keyLen + consumed + n)

/-- The loop of `Amf0Value::parse_strict_array`: `count` more values, the first of them the
`i`-th of the array. -/
@[grind =]
def parseStrictEntries : ℕ → ℕ → ℕ → List UInt8 → Except String (List (String × Amf0Value) × ℕ)
  | _, 0, _, _ => .ok ([], 0)
  | 0, _ + 1, _, _ => .error outOfFuel
  | fuel + 1, count + 1, i, data => do
      let (value, consumed) ← parseF fuel data
      let (entries, n) ← parseStrictEntries fuel count (i + 1) (data.drop consumed)
      return ((toString i, value) :: entries, consumed + n)

end

/-- **`Amf0Value::parse`.** -/
def parse (data : List UInt8) : Except String (Amf0Value × ℕ) := parseF (data.length + 1) data

/-! ### Steps that may fail -/

/-- A computation that went through went through its first step. -/
theorem exists_of_bind_eq_ok {α β : Type} {x : Except String α} {f : α → Except String β} {b : β}
    (h : (x >>= f) = .ok b) : ∃ a, x = .ok a ∧ f a = .ok b := by
  cases x with
  | error e => cases h
  | ok a => exact ⟨a, rfl, h⟩

/-- Two computations with the same first step agree when they agree after it. -/
theorem bind_congr_ok {α β : Type} {x y : Except String α} {f g : α → Except String β}
    (hxy : x = y) (hfg : ∀ a, y = .ok a → f a = g a) : (x >>= f) = (y >>= g) := by
  subst hxy
  cases x with
  | error e => rfl
  | ok a => exact hfg a rfl

end Amf0Value

end Rtmp

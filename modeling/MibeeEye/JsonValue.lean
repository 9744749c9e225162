/-
**JSON values.**

A JSON document as the crate `serde_json` holds it.  A number keeps the kind it was read as: an
unsigned integer, a negative one, or a float.  The fields of an object stand in the order in which
they are gone through, which is that of their keys.  The floats themselves, and what is computed with
them, are a parameter.

Main definitions:

* `Json.Floats` — the operations on floats;
* `Json.Number`, `Json.Value` — documents;
* `Json.Value.get`, `Json.Value.asStr`, … — access, none when the value is of another kind;
* `Json.insert`, `Json.Value.setField` — setting a field;
* `Json.Value.text` — the compact text of a value.

Main results:

* `Json.sizeOf_get_lt` — what stands in a field is smaller than the value it is a field of.
-/

import Mathlib.Algebra.Group.Nat.Defs
import Mathlib.Data.List.Basic

set_option relaxedAutoImplicit false
set_option autoImplicit false

namespace Json

/-! ### Floats -/

/-- The operations on floats of 64 bits, `F`, and of 32 bits, `G`. -/
structure Floats (F G : Type) where
  /-- `as f64` of an integer. -/
  ofInt : Int → F
  /-- `(lo..=hi).contains`. -/
  inRange : ℕ → ℕ → F → Bool
  /-- `fract() == 0.0`. -/
  isWhole : F → Bool
  toI64 : F → Int
  toU64 : F → ℕ
  /-- `* 1000.0`. -/
  times1000 : F → F
  /-- The text of a float in a format string. -/
  display : F → String
  /-- The text of a float in a JSON document. -/
  text : F → String
  parse : String → Option F
  toF32 : F → G
  /-- `(x.clamp(0.0, 1.0) * 1000.0).round() as u32`. -/
  toMille : G → ℕ
  /-- `m as f32 / 1000.0`. -/
  ofMille : ℕ → G

variable {F G : Type}

/-! ### Values -/

/-- A number; `negInt n` is `-(n + 1)`. -/
inductive Number (F : Type) where
  | posInt (n : Fin (2 ^ 64))
  | negInt (n : Fin (2 ^ 63))
  | float (x : F)
deriving DecidableEq

/-- A document. -/
inductive Value (F : Type) where
  | null
  | bool (b : Bool)
  | number (n : Number F)
  | string (s : String)
  | array (items : List (Value F))
  | object (fields : List (String × Value F))

namespace Number

/-- `Number::as_u64`. -/
def asU64 : Number F → Option (Fin (2 ^ 64))
  | posInt n => some n
  | _ => none

/-- `Number::as_f64`. -/
def asF64 (fl : Floats F G) : Number F → F
  | posInt n => fl.ofInt n
  | negInt n => fl.ofInt (Int.negSucc n)
  | float x => x

/-- `Number::to_string`. -/
def text (fl : Floats F G) : Number F → String
  | posInt n => toString (n : ℕ)
  | negInt n => toString (Int.negSucc n)
  | float x => fl.text x

end Number

/-! ### Fields -/

/-- `Map::get`. -/
@[grind =] def lookup (k : String) : List (String × Value F) → Option (Value F)
  | [] => none
  | f :: fields => if f.1 = k then some f.2 else lookup k fields

/-- `Map::insert`: the keys stay in order. -/
@[grind =] def insert (k : String) (v : Value F) : List (String × Value F) → List (String × Value F)
  | [] => [(k, v)]
  | f :: fields =>
    if k < f.1 then (k, v) :: f :: fields
    else if k = f.1 then (k, v) :: fields
    else f :: insert k v fields

theorem sizeOf_lookup_lt {k : String} {fields : List (String × Value F)} {v : Value F}
    (h : lookup k fields = some v) : sizeOf v < sizeOf fields := by
  induction fields with
  | nil => cases h
  | cons f fields ih =>
    rw [lookup] at h
    split at h
    · cases h
      obtain ⟨k', v⟩ := f
      simp
      omega
    · have := ih h
      simp
      omega

namespace Value

/-! ### Access -/

/-- `Value::as_object`. -/
def asObject : Value F → Option (List (String × Value F))
  | object fields => some fields
  | _ => none

/-- `Value::as_array`. -/
def asArray : Value F → Option (List (Value F))
  | array items => some items
  | _ => none

/-- `Value::as_str`. -/
def asStr : Value F → Option String
  | string s => some s
  | _ => none

/-- `Value::as_bool`. -/
def asBool : Value F → Option Bool
  | bool b => some b
  | _ => none

/-- `Value::as_u64`. -/
def asU64 : Value F → Option (Fin (2 ^ 64))
  | number n => n.asU64
  | _ => none

/-- `Value::as_f64`. -/
def asF64 (fl : Floats F G) : Value F → Option F
  | number n => some (n.asF64 fl)
  | _ => none

/-- `Value::get`. -/
def get (v : Value F) (k : String) : Option (Value F) := v.asObject.bind (lookup k)

/-- `value[k] = x`; none stands for the panic on a value that is not an object. -/
def setField (v : Value F) (k : String) (x : Value F) : Option (Value F) :=
  match v with
  | object fields => some (object (insert k x fields))
  | null => some (object [(k, x)])
  | _ => none

theorem get_object (fields : List (String × Value F)) (k : String) :
    (object fields).get k = lookup k fields := rfl

end Value

/-- What stands in a field is smaller than the value it is a field of. -/
theorem sizeOf_get_lt {v w : Value F} {k : String} (h : v.get k = some w) : sizeOf w < sizeOf v := by
  cases v with
  | object fields =>
    have := sizeOf_lookup_lt (Value.get_object fields k ▸ h)
    simp
    omega
  | _ => cases h

/-! ### Text -/

/-- A digit of `\u00xx`. -/
def hexDigit (n : ℕ) : Char := if n < 10 then Char.ofNat (48 + n) else Char.ofNat (87 + n)

/-- One character of a quoted string. -/
def escape (c : Char) : String :=
  if c = '"' then "\\\""
  else if c = '\\' then "\\\\"
  else if c.toNat = 0x08 then "\\b"
  else if c.toNat = 0x0C then "\\f"
  else if c = '\n' then "\\n"
  else if c = '\r' then "\\r"
  else if c = '\t' then "\\t"
  else if c.toNat < 0x20 then
    "\\u00" ++ String.ofList [hexDigit (c.toNat / 16), hexDigit (c.toNat % 16)]
  else String.ofList [c]

/-- A string in quotes. -/
def quote (s : String) : String := "\"" ++ String.join (s.toList.map escape) ++ "\""

/-- The text of a Boolean. -/
def boolText (b : Bool) : String := if b then "true" else "false"

mutual

/-- `Value::to_string`. -/
def Value.text (fl : Floats F G) : Value F → String
  | .null => "null"
  | .bool b => boolText b
  | .number n => n.text fl
  | .string s => quote s
  | .array items => "[" ++ String.intercalate "," (itemTexts fl items) ++ "]"
  | .object fields => "\x7b" ++ String.intercalate "," (fieldTexts fl fields) ++ "\x7d"

def itemTexts (fl : Floats F G) : List (Value F) → List String
  | [] => []
  | v :: items => v.text fl :: itemTexts fl items

def fieldTexts (fl : Floats F G) : List (String × Value F) → List String
  | [] => []
  | (k, v) :: fields => (quote k ++ ":" ++ v.text fl) :: fieldTexts fl fields

end

end Json

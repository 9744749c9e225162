/-
**AMF0: decoding undoes encoding.**

What `serialize` writes is read back by `parse` as the value it was written from, whatever bytes
follow.  The entries of an object end in band: an empty key and the byte `0x09`.  An entry may have
an empty key too, and is told from the end by the byte after it, since no value starts with `0x09`
(`Rtmp.Amf0Value.Encodes.eq_cons`).

Main definitions:

* `Rtmp.Amf0Value.Fits` — the values whose lengths fit the fields they are written to.

Main results:

* `Rtmp.Amf0Value.encodes_serialize` — what is written of a value that fits is an encoding of it;
* `Rtmp.Amf0Value.parse_serialize` — **the round trip**.
-/

import MibeeEye.RtmpAmf0Grammar

set_option relaxedAutoImplicit false
set_option autoImplicit false

namespace Rtmp

namespace Amf0Value

open Wire

/-! ### Values that fit -/

mutual

/-- Strings and keys have at most 65535 bytes, and the count of an ECMA array is a `u32`. -/
@[grind =] def Fits : Amf0Value → Prop
  | number _ => True
  | boolean _ => True
  | string s => (asBytes s).length ≤ 65535
  | object entries => FitsEntries entries
  | null => True
  | undefined => True
  | ecmaArray count entries => count < 2 ^ 32 ∧ FitsEntries entries

@[inherit_doc Fits, grind =]
def FitsEntries : List (String × Amf0Value) → Prop
  | [] => True
  | (key, value) :: entries =>
      (asBytes key).length ≤ 65535 ∧ Fits value ∧ FitsEntries entries

end

/-! ### What is written is an encoding -/

mutual

/-- A value that fits is written as an encoding of it, and never as a typed object. -/
theorem encodes_serialize {typedEnd : List UInt8} :
    ∀ v : Amf0Value, Fits v → Encodes 65535 typedEnd v (serialize v)
  | number bits, _ => .number bits
  | boolean true, _ => .boolean 1
  | boolean false, _ => .boolean 0
  | string s, hfits => .string s hfits
  | null, _ => .null
  | undefined, _ => .undefined
  | object entries, hfits => .object (encodesEntries_serialize entries hfits)
  | ecmaArray count entries, hfits => by
      rw [serialize, List.cons_append, List.cons_append, List.append_assoc]
      exact .ecmaArray hfits.1 (encodesEntries_serialize entries hfits.2)

/-- So are entries that fit, with their end. -/
theorem encodesEntries_serialize {typedEnd : List UInt8} :
    ∀ entries : List (String × Amf0Value), FitsEntries entries →
      EncodesEntries 65535 typedEnd entries (serializeObjectEntries entries ++ objectEnd)
  | [], _ => .done
  | (key, value) :: entries, hfits => by
      obtain ⟨hkey, hvalue, hentries⟩ := hfits
      rw [serializeObjectEntries, List.append_assoc, List.append_assoc]
      exact .entry key hkey (encodes_serialize value hvalue) (encodesEntries_serialize entries hentries)

end

/-! ### The round trip -/

/-- **Decoding undoes encoding**: a value is read back from what was written of it, with exactly the
bytes it was written as, and whatever follows is left alone. -/
theorem parse_serialize (v : Amf0Value) (h : Fits v) (r : List UInt8) :
    parse (serialize v ++ r) = .ok (v, (serialize v).length) :=
  parseF_of_encodes (by omega) (encodes_serialize v h) r _ (Nat.lt_succ_self _)

/-- An object with two empty keys, one before a nested array whose count is not its length. -/
theorem parse_serialize_empty_keys :
    ∃ v : Amf0Value, v = object [("", null), ("", ecmaArray 7 [("", string "")])] ∧ Fits v ∧
      parse (serialize v ++ [0x09]) = .ok (v, (serialize v).length) := by
  refine ⟨_, rfl, ?_, parse_serialize _ ?_ [0x09]⟩
  · simp [Fits, FitsEntries, asBytes]
  · simp [Fits, FitsEntries, asBytes]

end Amf0Value

end Rtmp

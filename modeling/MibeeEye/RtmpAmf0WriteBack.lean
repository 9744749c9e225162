/-
**AMF0: values from the wire, written back.**

A value that was parsed need not survive `serialize`.  The parser takes long strings and XML of up
to four gigabytes and makes plain strings of them; `serialize` writes every string with a two-byte
length and cuts the length off to sixteen bits.  A text of more than 65535 bytes is thus written
with a length that is not its own.  Nothing else is lost: the keys that strict arrays and dates get
are short, and every other wire form is already within the lengths `serialize` has room for.

Main definitions:

* `Rtmp.Amf0Value.ShortTexts` — bytes that begin with an encoding without an overlong text.

Main results:

* `Rtmp.Amf0Value.encodes_of_parse_serialize` — a value that is read back has no overlong text;
* `Rtmp.Amf0Value.writtenBack_iff` — **when a parsed value can be written back**.
-/

import MibeeEye.RtmpAmf0RoundTrip

set_option relaxedAutoImplicit false
set_option autoImplicit false

namespace Rtmp

namespace Amf0Value

open Wire

/-! ### Encodings without an overlong text -/

/-- The key of an item of a strict array is short. -/
theorem length_asBytes_toString_le {i : ℕ} (h : i < 2 ^ 32) :
    (asBytes (toString i)).length ≤ 65535 := by
  have hdigits : (toString i).length ≤ 10 :=
    (Nat.length_repr_le_iff (by omega)).2 (lt_of_lt_of_le h (by norm_num))
  have := length_asBytes_le (toString i)
  omega

mutual

/-- A value read from an encoding without an overlong text fits. -/
theorem fits_of_encodes : ∀ {v : Amf0Value} {w : List UInt8}, Encodes 65535 objectEnd v w → Fits v
  | _, _, .number _ => trivial
  | _, _, .boolean _ => trivial
  | _, _, .string _ hs => hs
  | _, _, .null => trivial
  | _, _, .undefined => trivial
  | _, _, .date _ _ _ => by
      have hms : (asBytes "ms").length ≤ 65535 := by decide
      have htz : (asBytes "tz").length ≤ 65535 := by decide
      simp [Fits, FitsEntries, hms, htz]
  | _, _, .longString _ hs => hs
  | _, _, .xml _ hs => hs
  | _, _, .object hentries => fitsEntries_of_encodes hentries
  | _, _, .ecmaArray hcount hentries => ⟨hcount, fitsEntries_of_encodes hentries⟩
  | _, _, .strictArray hcount hitems => ⟨hcount, fitsEntries_of_encodesItems hitems (by omega)⟩
  | _, _, .typedObject _ _ hentries => fitsEntries_of_encodes hentries

theorem fitsEntries_of_encodes : ∀ {entries : List (String × Amf0Value)} {w : List UInt8},
    EncodesEntries 65535 objectEnd entries w → FitsEntries entries
  | _, _, .done => trivial
  | _, _, .entry _ hkey hvalue hentries =>
      ⟨hkey, fits_of_encodes hvalue, fitsEntries_of_encodes hentries⟩

theorem fitsEntries_of_encodesItems : ∀ {i : ℕ} {items : List (String × Amf0Value)}
    {w : List UInt8}, EncodesItems 65535 objectEnd i items w → i + items.length < 2 ^ 32 + 1 →
      FitsEntries items
  | _, _, _, .done _, _ => trivial
  | _, _, _, .item hvalue hitems, hlen => by
      rw [List.length_cons] at hlen
      exact ⟨length_asBytes_toString_le (by omega), fits_of_encodes hvalue,
        fitsEntries_of_encodesItems hitems (by omega)⟩

end

/-! ### What is read back -/

/-- A value is written as at least its marker, and that is never the end marker of an object. -/
theorem serialize_append_eq_cons (v : Amf0Value) (r : List UInt8) :
    ∃ marker body, serialize v ++ r = marker :: body ∧ marker ≠ amf0ObjectEnd := by
  cases v with
  | number bits => exact ⟨amf0Number, _, rfl, by decide⟩
  | boolean b => exact ⟨amf0Boolean, _, rfl, by decide⟩
  | string s => exact ⟨amf0String, _, rfl, by decide⟩
  | object entries => exact ⟨amf0Object, _, rfl, by decide⟩
  | null => exact ⟨amf0Null, _, rfl, by decide⟩
  | undefined => exact ⟨amf0Undefined, _, rfl, by decide⟩
  | ecmaArray count entries => exact ⟨amf0EcmaArray, _, rfl, by decide⟩

/-- A string that was read from the form with a two-byte length is not overlong. -/
theorem length_le_of_parseF_string {fuel : ℕ} {body : List UInt8} {s : String} {n : ℕ}
    (h : parseF fuel (amf0String :: body) = .ok (string s, n)) : (asBytes s).length ≤ 65535 := by
  obtain ⟨w, r, hdata, -, hw⟩ := (encodes_of_parseF fuel).value _ _ _ h
  cases hw with
  | string s hs => exact hs
  | longString s hs => cases hdata
  | xml s hs => cases hdata

/-- The first step of a computation that went through, forgetting what else it returned. -/
theorem exists_snd_of_bind_eq_ok {x : Except String (List (String × Amf0Value) × ℕ)}
    {f : List (String × Amf0Value) → Amf0Value} {g : ℕ → ℕ}
    {entries : List (String × Amf0Value)} {n : ℕ} (hf : Function.Injective f)
    (h : (do let (es, m) ← x; return (f es, g m)) = (.ok (f entries, n) : Except String _)) :
    ∃ m, x = .ok (entries, m) := by
  obtain ⟨⟨es, m⟩, hx, h⟩ := exists_of_bind_eq_ok h
  have hes : f es = f entries := congrArg Prod.fst (Except.ok.inj h)
  rw [hf hes] at hx
  exact ⟨m, hx⟩

/-- An entry that is read back: its value is, and so are the entries after it. -/
theorem entry_of_parseObjectEntries {fuel n : ℕ} {key : String} {value : Amf0Value}
    {entries : List (String × Amf0Value)} {r : List UInt8} (hkey : (asBytes key).length ≤ 65535)
    (h : parseObjectEntries (fuel + 1) (serializeObjectEntries ((key, value) :: entries) ++ r) =
      .ok ((key, value) :: entries, n)) :
    ∃ consumed m,
      parseF fuel (serialize value ++ (serializeObjectEntries entries ++ r)) =
        .ok (value, consumed) ∧
      parseObjectEntries fuel
        ((serialize value ++ (serializeObjectEntries entries ++ r)).drop consumed) =
        .ok (entries, m) := by
  rw [serializeObjectEntries, List.append_assoc, List.append_assoc,
    parseObjectEntries_key fuel hkey (serialize_append_eq_cons value _)] at h
  obtain ⟨⟨v, consumed⟩, hvalue, h⟩ := exists_of_bind_eq_ok h
  obtain ⟨⟨es, m⟩, hentries, h⟩ := exists_of_bind_eq_ok h
  cases h
  exact ⟨consumed, m, hvalue, hentries⟩

/-- A value that fits is read back with exactly the bytes it was written as. -/
theorem parseF_serialize {fuel : ℕ} {v : Amf0Value} {r : List UInt8} (hfits : Fits v)
    (hfuel : (serialize v ++ r).length < fuel) :
    parseF fuel (serialize v ++ r) = .ok (v, (serialize v).length) :=
  parseF_of_encodes (by omega) (encodes_serialize v hfits) r fuel hfuel

mutual

/-- **A value that is read back has no overlong text**: the induction is on its encoding, and the
entries of an object are read back one by one, each after those before it. -/
theorem encodes_of_parse_serialize :
    ∀ {v : Amf0Value} {w : List UInt8}, Encodes (2 ^ 32 - 1) objectEnd v w →
      ∀ (r : List UInt8) (fuel n : ℕ), (serialize v ++ r).length < fuel →
        parseF fuel (serialize v ++ r) = .ok (v, n) → Encodes 65535 objectEnd v w
  | _, _, _, r, 0, n, hfuel, _ => by omega
  | _, _, .number bits, _, _ + 1, _, _, _ => .number bits
  | _, _, .boolean b, _, _ + 1, _, _, _ => .boolean b
  | _, _, .string s hs, _, _ + 1, _, _, _ => .string s hs
  | _, _, .null, _, _ + 1, _, _, _ => .null
  | _, _, .undefined, _, _ + 1, _, _, _ => .undefined
  | _, _, .date ms tz htz, _, _ + 1, _, _, _ => .date ms tz htz
  | _, _, .longString s _, _, _ + 1, _, _, h => .longString s (length_le_of_parseF_string h)
  | _, _, .xml s _, _, _ + 1, _, _, h => .xml s (length_le_of_parseF_string h)
  | _, _, .object hentries, r, fuel + 1, n, hfuel, h => by
      simp only [serialize, List.cons_append, List.append_assoc, List.length_cons] at hfuel h
      rw [parseF_object] at h
      obtain ⟨m, hm⟩ := exists_snd_of_bind_eq_ok (fun _ _ => object.inj) h
      exact .object (encodesEntries_of_parse_serialize hentries _ fuel m (by omega) hm)
  | _, _, .typedObject className hname hentries, r, fuel + 1, n, hfuel, h => by
      simp only [serialize, List.cons_append, List.append_assoc, List.length_cons] at hfuel h
      rw [parseF_object] at h
      obtain ⟨m, hm⟩ := exists_snd_of_bind_eq_ok (fun _ _ => object.inj) h
      exact .typedObject className hname
        (encodesEntries_of_parse_serialize hentries _ fuel m (by omega) hm)
  | _, _, .ecmaArray hcount hentries, r, fuel + 1, n, hfuel, h => by
      simp only [serialize, List.cons_append, List.append_assoc, List.length_cons] at hfuel h
      rw [parseF_ecmaArray fuel _ hcount] at h
      rw [List.length_append] at hfuel
      obtain ⟨m, hm⟩ := exists_snd_of_bind_eq_ok (fun _ _ h => (ecmaArray.inj h).2) h
      exact .ecmaArray hcount (encodesEntries_of_parse_serialize hentries _ fuel m (by omega) hm)
  | _, _, .strictArray hcount hitems, r, fuel + 1, n, hfuel, h => by
      simp only [serialize, List.cons_append, List.append_assoc, List.length_cons] at hfuel h
      rw [parseF_ecmaArray fuel _ hcount] at h
      rw [List.length_append] at hfuel
      obtain ⟨m, hm⟩ := exists_snd_of_bind_eq_ok (fun _ _ h => (ecmaArray.inj h).2) h
      exact .strictArray hcount
        (encodesItems_of_parse_serialize hitems (by omega) _ fuel m (by omega) hm)

theorem encodesEntries_of_parse_serialize :
    ∀ {entries : List (String × Amf0Value)} {w : List UInt8},
      EncodesEntries (2 ^ 32 - 1) objectEnd entries w →
      ∀ (r : List UInt8) (fuel n : ℕ), (serializeObjectEntries entries ++ r).length < fuel →
        parseObjectEntries fuel (serializeObjectEntries entries ++ r) = .ok (entries, n) →
        EncodesEntries 65535 objectEnd entries w
  | _, _, _, r, 0, n, hfuel, _ => by omega
  | _, _, .done, _, _ + 1, _, _, _ => .done
  | _, _, .entry key hkey hvalue hentries, r, fuel + 1, n, hfuel, h => by
      obtain ⟨consumed, m, hv, hes⟩ := entry_of_parseObjectEntries hkey h
      simp only [serializeObjectEntries, List.append_assoc, List.length_append,
        length_serializeStr] at hfuel
      have hshort := encodes_of_parse_serialize hvalue _ fuel consumed
        (by simp only [List.length_append]; omega) hv
      rw [parseF_serialize (fits_of_encodes hshort)
        (by simp only [List.length_append]; omega)] at hv
      cases hv
      rw [List.drop_left] at hes
      exact .entry key hkey hshort (encodesEntries_of_parse_serialize hentries r fuel m
        (by simp only [List.length_append]; omega) hes)

theorem encodesItems_of_parse_serialize :
    ∀ {i : ℕ} {items : List (String × Amf0Value)} {w : List UInt8},
      EncodesItems (2 ^ 32 - 1) objectEnd i items w → i + items.length < 2 ^ 32 + 1 →
      ∀ (r : List UInt8) (fuel n : ℕ), (serializeObjectEntries items ++ r).length < fuel →
        parseObjectEntries fuel (serializeObjectEntries items ++ r) = .ok (items, n) →
        EncodesItems 65535 objectEnd i items w
  | _, _, _, _, _, r, 0, n, hfuel, _ => by omega
  | _, _, _, .done i, _, _, _ + 1, _, _, _ => .done i
  | _, _, _, .item hvalue hitems, hlen, r, fuel + 1, n, hfuel, h => by
      rw [List.length_cons] at hlen
      obtain ⟨consumed, m, hv, hes⟩ := entry_of_parseObjectEntries
        (length_asBytes_toString_le (by omega)) h
      simp only [serializeObjectEntries, List.append_assoc, List.length_append,
        length_serializeStr] at hfuel
      have hshort := encodes_of_parse_serialize hvalue _ fuel consumed
        (by simp only [List.length_append]; omega) hv
      rw [parseF_serialize (fits_of_encodes hshort)
        (by simp only [List.length_append]; omega)] at hv
      cases hv
      rw [List.drop_left] at hes
      exact .item hshort (encodesItems_of_parse_serialize hitems (by omega) r fuel m
        (by simp only [List.length_append]; omega) hes)

end

/-! ### Writing back what was parsed -/

/-- The bytes begin with an encoding whose long strings and XML have at most 65535 bytes. -/
def ShortTexts (data : List UInt8) : Prop :=
  ∃ v w r, data = w ++ r ∧ Encodes 65535 objectEnd v w

mutual

/-- A bound on the long strings can be raised. -/
theorem Encodes.mono {typedEnd : List UInt8} {m n : ℕ} (hmn : m ≤ n) :
    ∀ {v : Amf0Value} {w : List UInt8}, Encodes m typedEnd v w → Encodes n typedEnd v w
  | _, _, .number bits => .number bits
  | _, _, .boolean b => .boolean b
  | _, _, .string s hs => .string s hs
  | _, _, .null => .null
  | _, _, .undefined => .undefined
  | _, _, .date ms tz htz => .date ms tz htz
  | _, _, .longString s hs => .longString s (hs.trans hmn)
  | _, _, .xml s hs => .xml s (hs.trans hmn)
  | _, _, .object hentries => .object (hentries.mono hmn)
  | _, _, .ecmaArray hcount hentries => .ecmaArray hcount (hentries.mono hmn)
  | _, _, .strictArray hcount hitems => .strictArray hcount (hitems.mono hmn)
  | _, _, .typedObject className hname hentries => .typedObject className hname (hentries.mono hmn)

theorem EncodesEntries.mono {typedEnd : List UInt8} {m n : ℕ} (hmn : m ≤ n) :
    ∀ {entries : List (String × Amf0Value)} {w : List UInt8},
      EncodesEntries m typedEnd entries w → EncodesEntries n typedEnd entries w
  | _, _, .done => .done
  | _, _, .entry key hkey hvalue hentries => .entry key hkey (hvalue.mono hmn) (hentries.mono hmn)

theorem EncodesItems.mono {typedEnd : List UInt8} {m n : ℕ} (hmn : m ≤ n) :
    ∀ {i : ℕ} {items : List (String × Amf0Value)} {w : List UInt8},
      EncodesItems m typedEnd i items w → EncodesItems n typedEnd i items w
  | _, _, _, .done i => .done i
  | _, _, _, .item hvalue hitems => .item (hvalue.mono hmn) (hitems.mono hmn)

end

/-- **When a parsed value can be written back**: exactly when it was read from bytes without an
overlong text. -/
theorem writtenBack_iff {data : List UInt8} {v : Amf0Value} {n : ℕ}
    (h : parse data = .ok (v, n)) :
    parse (serialize v) = .ok (v, (serialize v).length) ↔ ShortTexts data := by
  obtain ⟨w, r, rfl, rfl, hw⟩ := parse_eq_ok_iff.1 h
  constructor
  · intro hback
    have hread : parseF ((serialize v ++ []).length + 1) (serialize v ++ []) =
        .ok (v, (serialize v).length) := by
      rw [List.append_nil]
      exact hback
    exact ⟨v, w, r, rfl, encodes_of_parse_serialize hw [] _ _ (Nat.lt_succ_self _) hread⟩
  · rintro ⟨v', w', r', hdata, hw'⟩
    -- the two encodings at the front of the bytes are of one value
    have hsame : parse (w ++ r) = .ok (v', w'.length) :=
      parse_eq_ok_iff.2 ⟨w', r', hdata, rfl, hw'.mono (by omega)⟩
    have hv : v = v' := by
      rw [h] at hsame
      exact congrArg Prod.fst (Except.ok.inj hsame)
    subst hv
    have hread := parseF_serialize (r := []) (fits_of_encodes hw') (Nat.lt_succ_self _)
    rw [List.append_nil] at hread
    exact hread

/-- A long string of one byte is written back. -/
theorem writtenBack_short : parse [0x0C, 0x00, 0x00, 0x00, 0x01, 0x61] = .ok (string "a", 6) ∧
    (parse (serialize (string "a")) = .ok (string "a", (serialize (string "a")).length) ↔
      ShortTexts [0x0C, 0x00, 0x00, 0x00, 0x01, 0x61]) := by
  have h : parse [0x0C, 0x00, 0x00, 0x00, 0x01, 0x61] = .ok (string "a", 6) :=
    parse_eq_ok_iff.2 ⟨_, [], by decide, rfl, .longString "a" (by decide)⟩
  exact ⟨h, writtenBack_iff h⟩

/-- The text of `n` letters takes `n` bytes. -/
theorem length_asBytes_replicate (n : ℕ) :
    (asBytes (String.ofList (List.replicate n 'a'))).length = n := by
  rw [asBytes_eq_flatMap, String.toList_ofList]
  induction n with
  | zero => rfl
  | succ n ih =>
      have hone : (String.utf8EncodeChar 'a').length = 1 := by decide
      rw [List.replicate_succ, List.flatMap_cons, List.length_append, ih, hone, Nat.add_comm]

/-- A text of 65536 bytes is written with the length zero. -/
theorem parse_serialize_cut {s : String} (hlen : (asBytes s).length = 65536) :
    parse (serialize (string s)) = .ok (string "", 3) := by
  have hcut : beBytes 2 65536 = [0, 0] := by decide
  refine parse_eq_ok_iff.2 ⟨amf0String :: serializeStr "", asBytes s, ?_, rfl,
    .string "" (by decide)⟩
  rw [serialize, serializeStr, hlen, hcut]
  rfl

/-- So it is read as a long string, and not read back. -/
theorem parse_longString_cut {s : String} (hlen : (asBytes s).length = 65536) :
    parse (amf0LongString :: (beBytes 4 65536 ++ asBytes s)) = .ok (string s, 65541) ∧
      parse (serialize (string s)) ≠ .ok (string s, (serialize (string s)).length) := by
  constructor
  · refine parse_eq_ok_iff.2 ⟨amf0LongString :: (beBytes 4 (asBytes s).length ++ asBytes s), [],
      ?_, ?_, .longString s (by omega)⟩
    · rw [hlen, List.append_nil]
    · simp only [List.length_cons, List.length_append, length_beBytes, hlen]
  · rw [parse_serialize_cut hlen]
    intro hsame
    have hn : 3 = (serialize (string s)).length := congrArg Prod.snd (Except.ok.inj hsame)
    rw [serialize, List.length_cons, length_serializeStr, hlen] at hn
    omega

/-- **A text of 65536 letters is written back as an empty one.** -/
theorem longString_not_writtenBack :
    ∃ s, s = String.ofList (List.replicate 65536 'a') ∧
      parse (amf0LongString :: (beBytes 4 65536 ++ asBytes s)) = .ok (string s, 65541) ∧
      parse (serialize (string s)) ≠ .ok (string s, (serialize (string s)).length) :=
  ⟨_, rfl, parse_longString_cut (length_asBytes_replicate 65536)⟩

end Amf0Value

end Rtmp
